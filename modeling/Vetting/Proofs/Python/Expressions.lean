import Vetting.Proofs.Python.Forms
import Vetting.Proofs.Python.Reading
import Vetting.Python.Grammar.Expression

/-!
# Trees of expressions

Every rule of the grammar of expressions gives a sound node that may stand anywhere, if the rules that it comes
back to do (`Rules.Sound`). Targets are expressions taken otherwise; parameters are sound nodes that fit in a
parameter list.
-/

namespace Vetting.Python

open Parse Node

namespace Node

/-- The type of a name. -/
structure IsTypeHint (n : Node) : Prop where
  value : n.IsValue
  kind : n.kind = .type

theorem IsTypeHint.as {n : Node} {r : Role} (h : n.IsTypeHint) : (n.as r).IsTypeHint :=
  ⟨isValue_as.mpr h.value, by rw [kind_as, h.kind]⟩

theorem IsTypeHint.branch {place : Location} {children : List Node} (h : ∀ c ∈ children, c.IsValue) :
    (branch .type place children).IsTypeHint :=
  ⟨.branch rfl h True.intro, rfl⟩

structure IsBlock (n : Node) : Prop where
  sound : n.Sound
  kind : n.kind = .block

end Node

/-- What the rules that others come back to have to give. -/
structure Rules.Sound (rules : Rules) : Prop where
  test : (rules .test).Yields IsValue
  named : (rules .named).Yields IsValue
  disjunction : (rules .disjunction).Yields IsValue
  inversion : (rules .inversion).Yields IsValue
  bitwise : (rules .bitwise).Yields IsValue
  factor : (rules .factor).Yields IsValue
  typeHint : (rules .typeHint).Yields IsTypeHint
  list : (rules .list).Yields IsValue
  block (indent : Indentation) : (rules (.block indent)).Yields IsBlock

namespace Grammar

/-- A name on its own. -/
structure IsName (n : Node) : Prop where
  kind : n.kind = .identifier
  role : n.role = .part
  value : n.IsValue

theorem isWord_spelling {t : Token} (h : t.isName = true) : IsWord t.spelling := by
  have hk : t.kind = .name := by
    revert h
    unfold Token.isName
    cases t.kind <;> simp
  rw [IsWord, Token.spelling, String.toList_ofList]
  exact t.spelled hk

theorem isName_identifierOf {t : Token} (h : t.isName = true) : IsName (identifierOf t) :=
  ⟨rfl, rfl, .leaf rfl ⟨rfl, isWord_spelling h⟩⟩

theorem identifier_yields : identifier.Yields IsName :=
  Yields.expectName.bind fun _ ht => .pure (isName_identifierOf ht)

theorem identifier_value : identifier.Yields IsValue := identifier_yields.mono fun _ h => h.value

/-! ### Targets -/

theorem splatTarget?_eq_some {ns ms : List Node} (h : splatTarget? ns = some ms) :
    ms = ns ∧ ∀ n ∈ ns, n.kind.isTarget = true := by
  unfold splatTarget? at h
  split at h
  all_goals
    cases h
    try exact ⟨rfl, List.forall_mem_singleton.mpr rfl⟩

theorem isTarget_of_targets? {ns ms : List Node}
    (h : ∀ n ∈ ns, ∀ m, target? n = some m → m.IsTarget) (hms : targets? ns = some ms) :
    ∀ m ∈ ms, m.IsTarget := by
  induction ns generalizing ms with
  | nil =>
    cases hms
    exact List.forall_mem_nil _
  | cons n rest ih =>
    obtain ⟨hn, hrest⟩ := List.forall_mem_cons.mp h
    obtain ⟨m, hm, hms⟩ := Option.bind_eq_some_iff.mp hms
    obtain ⟨more, hmore, rfl⟩ := Option.map_eq_some_iff.mp hms
    exact List.forall_mem_cons.mpr ⟨hn m hm, ih hrest hmore⟩

/-- The target that an expression is taken as is sound. -/
theorem isTarget_of_target? {n m : Node} (hn : n.Sound) (h : target? n = some m) : m.IsTarget := by
  -- patterns are made from the children, a star from the name that stands behind it
  induction n using childInduction generalizing m with
  | step n ih =>
    have hchildren : ∀ c ∈ n.children, ∀ m, target? c = some m → m.IsTarget :=
      fun c hc m hm => ih c hc (hn.child hc) hm
    unfold target? at h
    split at h
    case h_1 | h_2 | h_3 =>
      cases h
      exact ⟨hn, rfl⟩
    case h_4 | h_5 | h_6 | h_7 =>
      obtain ⟨ms, hms, rfl⟩ := Option.map_eq_some_iff.mp h
      exact .pattern rfl (isTarget_of_targets? hchildren hms) True.intro
    case h_8 =>
      obtain ⟨ms, hms, rfl⟩ := Option.map_eq_some_iff.mp h
      obtain ⟨rfl, hk⟩ := splatTarget?_eq_some hms
      exact .pattern rfl (fun d hd => ⟨hn.child hd, hk d hd⟩) True.intro
    case h_9 => cases h

theorem asTarget_yields {n : Node} (hn : n.Sound) : (asTarget n).Yields IsTarget := by
  unfold asTarget
  split
  · exact .pure (isTarget_of_target? hn ‹_›)
  · exact .fail

variable {rules : Rules}

/-! ### Lists of expressions -/

theorem element_yields (hr : rules.Sound) : (element rules).Yields IsValue := by
  unfold element
  refine .seq fun t => .seq fun star => .ite (fun _ => ?_) fun _ => hr.named
  exact hr.bitwise.bind fun n hn => .pure (.branch rfl (List.forall_mem_singleton.mpr hn) True.intro)

/-- A target that may stand behind a star, as loops and comprehensions have it. -/
theorem loopTarget_yields (hr : rules.Sound) :
    (do
      let t ← peek
      if ← accept .star then asTarget (branch .listSplat t.place [← rules .bitwise])
      else asTarget (← rules .bitwise) : Parse Node).Yields IsTarget := by
  refine .seq fun t => .seq fun star => .ite (fun _ => ?_) fun _ => ?_
  · refine hr.bitwise.bind fun n hn => ?_
    have hv : (branch .listSplat t.place [n]).IsValue :=
      .branch rfl (List.forall_mem_singleton.mpr hn) True.intro
    exact asTarget_yields hv.sound
  · exact hr.bitwise.bind fun n hn => asTarget_yields hn.sound

/-- What binds a target on its left may have parts of other kinds before and behind. -/
theorem sound_binder {k : Kind} {place : Location} {before behind : List Node} {left : Node}
    (hk : k.takesTarget = true) (hbefore : ∀ n ∈ before, n.IsValue) (hleft : left.IsTarget)
    (hbehind : ∀ n ∈ behind, n.Sound ∧ k.fits n.role n.kind = true) (hs : ∀ ns, Shape k "" ns) :
    (branch k place (before ++ left.as .left :: behind)).Sound := by
  refine sound_branch ?_ ?_ (hs _)
  · rw [List.forall_mem_append, List.forall_mem_cons]
    refine ⟨fun n hn => (hbefore n hn).fits, ?_, fun n hn => (hbehind n hn).2⟩
    rw [kind_as, role_as]
    exact hleft.fits (by simp [Kind.holdsTargets, hk])
  · rw [List.forall_mem_append, List.forall_mem_cons, sound_as]
    exact ⟨fun n hn => (hbefore n hn).sound, hleft.sound, fun n hn => (hbehind n hn).1⟩

theorem sound_assigned {k : Kind} {place : Location} {behind : List Node} {left : Node}
    (hk : k.takesTarget = true) (hleft : left.IsTarget)
    (hbehind : ∀ n ∈ behind, n.Sound ∧ k.fits n.role n.kind = true) (hs : ∀ ns, Shape k "" ns) :
    (branch k place (left.as .left :: behind)).Sound := by
  rw [← List.nil_append (_ :: behind)]
  exact sound_binder hk (List.forall_mem_nil _) hleft hbehind hs

theorem clause?_yields (hr : rules.Sound) : (clause? rules).Yields fun o => ∀ n ∈ o, n.IsValue := by
  have hnone : ∀ n ∈ (none : Option Node), n.IsValue := nofun
  unfold clause?
  refine .seq fun t => ?_
  extract_lets isAsync target mark join
  have hmark : ∀ n ∈ mark, n.IsValue := by
    simp only [mark]
    split
    · exact List.forall_mem_singleton.mpr (.leaf rfl True.intro)
    · exact List.forall_mem_nil _
  have hjoin : ∀ u, (join u).Yields fun o => ∀ n ∈ o, n.IsValue := by
    intro u
    refine (Yields.items (loopTarget_yields hr) _).bind fun r ht => ?_
    obtain ⟨targets, trailing⟩ := r
    dsimp only at ht ⊢
    refine .seq fun _ => hr.disjunction.bind fun iterated hi => .pure fun n hn => ?_
    cases hn
    refine ⟨sound_binder rfl hmark ?_ ?_ fun _ => True.intro, rfl⟩
    · split
      · exact ht _ List.mem_cons_self
      · exact .pattern rfl ht True.intro
    · exact List.forall_mem_singleton.mpr ⟨sound_as.mpr hi.sound, (isValue_as.mpr hi).fits⟩
  refine .ite (fun _ => ?_) fun _ => .ite (fun _ => .seq fun _ => ?_) fun _ => .pure hnone
  · exact .seq fun _ => .ite (fun _ => .seq fun _ => hjoin ()) fun _ => hjoin ()
  · refine hr.disjunction.bind fun n hn => .pure fun m hm => ?_
    cases hm
    exact .branch rfl (List.forall_mem_singleton.mpr hn) True.intro

theorem clauses_yields (hr : rules.Sound) : (clauses rules).Yields fun ns => ∀ n ∈ ns, n.IsValue :=
  .many (clause?_yields hr)

/-! ### Arguments and subscripts -/

theorem jointsAhead_yields : jointsAhead.Yields fun ns => ∀ n ∈ ns, n.IsValue := by
  refine .seq fun t => .pure fun n hn => ?_
  obtain ⟨l, -, rfl⟩ := List.mem_map.mp hn
  exact .leaf rfl True.intro

theorem argument_yields (hr : rules.Sound) (order : ArgumentOrder) :
    (argument rules order).Yields fun r => r.1.IsValue := by
  unfold argument
  refine .seq fun t => .seq fun star => .ite (fun _ => ?_) fun _ =>
    .seq fun mapping => .ite (fun _ => ?_) fun _ => .seq fun second => .ite (fun _ => ?_) fun _ => ?_
  · refine hr.test.bind fun n hn => ?_
    have hv : (branch .listSplat t.place [n]).IsValue :=
      .branch rfl (List.forall_mem_singleton.mpr hn) True.intro
    exact .ite (fun _ => .seq fun _ => .pure hv) fun _ => .pure hv
  · refine hr.test.bind fun n hn => .pure ?_
    exact .branch rfl (List.forall_mem_singleton.mpr hn) True.intro
  · refine identifier_yields.bind fun name hname => .seq fun _ => hr.test.bind fun n hn => ?_
    have hv : (branch .keywordArgument t.place [name.as .name, n.as .value]).IsValue :=
      .branch rfl (by simp [hname.value, hn]) True.intro
    exact .ite (fun _ => .seq fun _ => .pure hv) fun _ => .pure hv
  · refine hr.named.bind fun n hn => ?_
    exact .ite (fun _ => .seq fun _ => .pure hn) fun _ => .pure hn

theorem argumentStep_yields (hr : rules.Sound) {s : ArgumentOrder × List Node × Bool}
    (hs : ∀ n ∈ s.2.1, n.IsValue) :
    (argumentStep rules s).Yields fun o => ∀ s' ∈ o, ∀ n ∈ s'.2.1, n.IsValue := by
  obtain ⟨order, seen, closed⟩ := s
  unfold argumentStep
  dsimp only at hs ⊢
  refine .ite (fun _ => .pure nofun) fun _ => ?_
  refine jointsAhead_yields.bind fun before hb => .seq fun _ => .ite (fun _ => .pure ?_) fun _ => ?_
  · intro s' hs' n hn
    cases hs'
    simp only [List.mem_append, List.mem_reverse] at hn
    exact hn.elim (hb n) (hs n)
  refine (argument_yields hr order).bind fun r hv => ?_
  obtain ⟨value, order'⟩ := r
  refine jointsAhead_yields.bind fun behind hbehind => ?_
  have hall : ∀ n ∈ behind.reverse ++ value :: (before.reverse ++ seen), n.IsValue := by
    intro n hn
    simp only [List.mem_append, List.mem_cons, List.mem_reverse] at hn
    obtain hn | rfl | hn | hn := hn
    · exact hbehind n hn
    · exact hv
    · exact hb n hn
    · exact hs n hn
  refine .seq fun _ => .ite (fun _ => .pure ?_) fun _ => .seq fun _ => .pure ?_
  all_goals
    intro s' hs'
    cases hs'
    exact hall

theorem arguments_yields (hr : rules.Sound) (start : Location) :
    (arguments rules start).Yields IsValue := by
  unfold arguments
  refine jointsAhead_yields.bind fun before hb => .seq fun _ => .ite (fun _ => .pure ?_) fun _ => ?_
  · exact .branch rfl hb True.intro
  refine (argument_yields hr _).bind fun r hf => ?_
  obtain ⟨first, order⟩ := r
  dsimp only at hf ⊢
  refine .seq fun t => .ite (fun _ => ?_) fun _ => ?_
  · refine (clauses_yields hr).bind fun parts hp => .seq fun _ => .pure ?_
    exact .branch rfl (List.forall_mem_cons.mpr ⟨isValue_as.mpr hf, hp⟩) True.intro
  refine jointsAhead_yields.bind fun behind hbehind => ?_
  have hseen : ∀ n ∈ behind.reverse ++ first :: before.reverse, n.IsValue := by
    intro n hn
    simp only [List.mem_append, List.mem_cons, List.mem_reverse] at hn
    obtain hn | rfl | hn := hn
    · exact hbehind n hn
    · exact hf
    · exact hb n hn
  have hlist : ∀ ns : List Node, (∀ n ∈ ns, n.IsValue) →
      (branch .argumentList start ns.reverse).IsValue :=
    fun ns h => .branch rfl (fun n hn => h n (List.mem_reverse.mp hn)) True.intro
  refine .seq fun _ => .ite (fun _ => .seq fun n => ?_) fun _ => .seq fun _ => .pure (hlist _ hseen)
  refine (Yields.iterate (fun s hs => argumentStep_yields hr hs) n
    (a := (order, _, false)) hseen).bind fun s hs => ?_
  obtain ⟨order', ns, closed⟩ := s
  exact .ite (fun _ => .pure (hlist _ hs)) fun _ => .fail

theorem isValue_bundle {start : Location} {parts : List Node × Bool} (h : ∀ n ∈ parts.1, n.IsValue) :
    ∀ n ∈ bundle start parts, n.IsValue := by
  unfold bundle
  split
  · exact h
  · exact List.forall_mem_singleton.mpr (.branch rfl h True.intro)

theorem subscript_yields (hr : rules.Sound) : (subscript rules).Yields IsValue := by
  unfold subscript
  refine .seq fun t => ?_
  extract_lets bound? join
  have hbound : bound?.Yields fun ns => ∀ n ∈ ns, n.IsValue := by
    refine .seq fun t => .ite (fun _ => .pure (List.forall_mem_nil _)) fun _ => ?_
    exact hr.test.bind fun n hn => .pure (List.forall_mem_singleton.mpr hn)
  have hjoin : ∀ first : List Node, (∀ n ∈ first, n.IsValue) → (join first).Yields IsValue := by
    intro first hf
    refine .seq fun colon => .seq fun _ => .ite (fun _ => ?_) fun _ => ?_
    · extract_lets join'
      have hjoin' : ∀ u, (join' u).Yields IsValue := by
        intro u
        refine hbound.bind fun upper hu => .seq fun _ => ?_
        extract_lets finish
        have hfinish : ∀ step : List Node, (∀ n ∈ step, n.IsValue) → (finish step).Yields IsValue := by
          intro step hstep
          refine .pure (.branch rfl ?_ True.intro)
          simp only [List.forall_mem_append]
          exact ⟨⟨hf, hu⟩, hstep⟩
        exact .ite (fun _ => hbound.bind hfinish) fun _ => hfinish [] (List.forall_mem_nil _)
      exact .ite (fun _ => .seq hjoin') fun _ => hjoin' ()
    · split
      · exact .pure (hf _ List.mem_cons_self)
      · exact .fail
  refine .ite (fun _ => hjoin [] (List.forall_mem_nil _)) fun _ => ?_
  exact (element_yields hr).bind fun n hn => hjoin [n] (List.forall_mem_singleton.mpr hn)

/-! ### Atoms -/

theorem yieldExpression_yields (hr : rules.Sound) : (yieldExpression rules).Yields IsValue := by
  unfold yieldExpression
  refine .seq fun t => .seq fun _ => .ite (fun _ => ?_) fun _ => .seq fun _ => .ite (fun _ => ?_) fun _ => ?_
  · exact hr.test.bind fun n hn => .pure (.branch rfl (List.forall_mem_singleton.mpr hn) True.intro)
  · exact hr.list.bind fun n hn => .pure (.branch rfl (List.forall_mem_singleton.mpr hn) True.intro)
  · exact .pure (.branch rfl (List.forall_mem_nil _) True.intro)

theorem parenthesized_yields (hr : rules.Sound) (start : Location) :
    (parenthesized rules start).Yields IsValue := by
  unfold parenthesized
  refine .seq fun _ => .ite (fun _ => .pure (.branch rfl (List.forall_mem_nil _) True.intro)) fun _ => ?_
  refine .seq fun _ => .ite (fun _ => ?_) fun _ => ?_
  · refine (yieldExpression_yields hr).bind fun n hn => .seq fun _ => .pure ?_
    exact .branch rfl (List.forall_mem_singleton.mpr hn) True.intro
  refine (element_yields hr).bind fun first hf => .seq fun t => .ite (fun _ => ?_) fun _ =>
    .ite (fun _ => ?_) fun _ => .seq fun _ => ?_
  · refine (Yields.moreItems hf (element_yields hr) _).bind fun r hall => .seq fun _ => .pure ?_
    exact .branch rfl hall True.intro
  · refine (clauses_yields hr).bind fun parts hp => .seq fun _ => .pure ?_
    exact .branch rfl (List.forall_mem_cons.mpr ⟨isValue_as.mpr hf, hp⟩) True.intro
  · have hv : (branch .parenthesized start [first]).IsValue :=
      .branch rfl (List.forall_mem_singleton.mpr hf) True.intro
    exact .ite (fun _ => .seq fun _ => .pure hv) fun _ => .pure hv

theorem bracketed_yields (hr : rules.Sound) (start : Location) :
    (bracketed rules start).Yields IsValue := by
  unfold bracketed
  refine .seq fun _ => .ite (fun _ => .pure (.branch rfl (List.forall_mem_nil _) True.intro)) fun _ => ?_
  refine (element_yields hr).bind fun first hf => .seq fun t => .ite (fun _ => ?_) fun _ => ?_
  · refine (clauses_yields hr).bind fun parts hp => .seq fun _ => .pure ?_
    exact .branch rfl (List.forall_mem_cons.mpr ⟨isValue_as.mpr hf, hp⟩) True.intro
  · refine (Yields.moreItems hf (element_yields hr) _).bind fun r hall => .seq fun _ => .pure ?_
    exact .branch rfl hall True.intro

theorem entry_yields (hr : rules.Sound) : (entry rules).Yields IsValue := by
  unfold entry
  refine .seq fun t => .seq fun _ => .ite (fun _ => ?_) fun _ => ?_
  · exact hr.bitwise.bind fun n hn => .pure (.branch rfl (List.forall_mem_singleton.mpr hn) True.intro)
  · refine hr.test.bind fun key hkey => .seq fun _ => hr.test.bind fun value hvalue => .pure ?_
    exact .branch rfl (by simp [hkey, hvalue]) True.intro

theorem braced_yields (hr : rules.Sound) (start : Location) : (braced rules start).Yields IsValue := by
  have hcomprehension : ∀ {k : Kind} {first : Node}, k.standsAnywhere = true →
      (∀ ns, Shape k "" ns) → first.IsValue →
        (do
          let parts ← clauses rules
          let _ ← expect .closeBrace
          return branch k start (first.as .body :: parts) : Parse Node).Yields IsValue := by
    intro k first hk hs hf
    refine (clauses_yields hr).bind fun parts hp => .seq fun _ => .pure ?_
    exact .branch hk (List.forall_mem_cons.mpr ⟨isValue_as.mpr hf, hp⟩) (hs _)
  unfold braced
  refine .seq fun _ => .ite (fun _ => .pure (.branch rfl (List.forall_mem_nil _) True.intro)) fun _ => ?_
  extract_lets stops
  refine .seq fun t => .ite (fun _ => ?_) fun _ => ?_
  · refine (Yields.items (entry_yields hr) _).bind fun r hall => .seq fun _ => .pure ?_
    exact .branch rfl hall True.intro
  refine (element_yields hr).bind fun first hf => .seq fun colon => .ite (fun _ => .seq fun _ => ?_) fun _ =>
    .seq fun _ => .ite (fun _ => hcomprehension rfl (fun _ => True.intro) hf) fun _ => ?_
  · extract_lets join
    have hjoin : ∀ u, (join u).Yields IsValue := by
      intro u
      refine hr.test.bind fun value hv => ?_
      have hpair : (branch .pair t.place [first, value]).IsValue :=
        .branch rfl (by simp [hf, hv]) True.intro
      refine .seq fun _ => .ite (fun _ => hcomprehension rfl (fun _ => True.intro) hpair) fun _ => ?_
      refine (Yields.moreItems hpair (entry_yields hr) _).bind fun r hall => .seq fun _ => .pure ?_
      exact .branch rfl hall True.intro
    exact .ite (fun _ => .seq hjoin) fun _ => hjoin ()
  · refine (Yields.moreItems hf (element_yields hr) _).bind fun r hall => .seq fun _ => .pure ?_
    exact .branch rfl hall True.intro

/-! ### Strings -/

theorem fieldExpression_yields (hr : rules.Sound) (tokens : List Token) :
    (fieldExpression rules tokens).Yields IsValue := by
  intro c n c' h
  unfold fieldExpression at h
  extract_lets finish whole at h
  have hfinish : ∀ value : Node, value.IsValue → (finish value).Yields IsValue := by
    intro value hv
    refine .seq fun t => ?_
    split
    · exact .pure hv
    · exact .fail
  have hwhole : whole.Yields IsValue := by
    refine .seq fun t => .seq fun second => .ite (fun _ => ?_) fun _ => .ite (fun _ => ?_) fun _ => ?_
    · exact (yieldExpression_yields hr).bind hfinish
    · exact hr.named.bind hfinish
    · exact hr.list.bind hfinish
  split at h
  · cases h
    exact hwhole _ _ _ ‹_›
  · cases h
    exact .leaf rfl True.intro

mutual

theorem pieceNode_yields (hr : rules.Sound) :
    ∀ piece : Literal.Piece, (pieceNode rules piece).Yields IsValue
  | .text place text => .pure (.leaf rfl True.intro)
  | .field place exprPlace expr spec => by
    unfold pieceNode
    refine (fieldExpression_yields hr _).bind fun value hv => ?_
    refine (pieceNodes_yields hr spec).bind fun format hformat => .pure ?_
    refine .branch rfl (List.forall_mem_cons.mpr ⟨hv, ?_⟩) True.intro
    split
    · exact List.forall_mem_nil _
    · exact List.forall_mem_singleton.mpr (.branch rfl hformat True.intro)

theorem pieceNodes_yields (hr : rules.Sound) :
    ∀ pieces : List Literal.Piece, (pieceNodes rules pieces).Yields fun ns => ∀ n ∈ ns, n.IsValue
  | [] => .pure (List.forall_mem_nil _)
  | piece :: rest => by
    unfold pieceNodes
    refine (pieceNode_yields hr piece).bind fun n hn => ?_
    exact (pieceNodes_yields hr rest).bind fun ns hns => .pure (List.forall_mem_cons.mpr ⟨hn, hns⟩)

end

theorem string_yields (hr : rules.Sound) : (string rules).Yields IsValue := by
  unfold string
  refine .seq fun t => ?_
  split
  case h_2 => exact .fail
  case h_1 literal _ =>
    extract_lets marks start join checked
    have hjoin : ∀ parts : List Node, (∀ n ∈ parts, n.IsValue) → (join parts).Yields IsValue := by
      intro parts hparts
      exact .pure (.branch rfl (List.forall_mem_cons.mpr ⟨.leaf rfl True.intro, hparts⟩) True.intro)
    have hchecked : ∀ u, (checked u).Yields IsValue := by
      intro u
      refine Yields.bind (P := fun parts => ∀ n ∈ parts, n.IsValue) (.pure ?_) hjoin
      split
      · exact List.forall_mem_nil _
      · exact List.forall_mem_singleton.mpr (.leaf rfl True.intro)
    refine .seq fun names => ?_
    split
    · exact (pieceNodes_yields hr _).bind hjoin
    · exact .seq fun _ => (Yields.pure (List.forall_mem_nil _)).bind hjoin
    · split
      · exact .seq hchecked
      · exact hchecked ()

theorem strings_yields (hr : rules.Sound) : (strings rules).Yields IsValue := by
  unfold strings
  have hmore : (do
      if (← peek).isString then return some (← string rules) else return none :
        Parse (Option Node)).Yields fun o => ∀ n ∈ o, n.IsValue := by
    refine .seq fun t => .ite (fun _ => ?_) fun _ => .pure nofun
    refine (string_yields hr).bind fun n hn => .pure fun m hm => ?_
    cases hm
    exact hn
  refine .seq fun t => (string_yields hr).bind fun first hf => (Yields.many hmore).bind fun more hm => ?_
  refine .ite (fun _ => .pure hf) fun _ => ?_
  have hv : (branch .concatenatedString t.place (first :: more)).IsValue :=
    .branch rfl (List.forall_mem_cons.mpr ⟨hf, hm⟩) True.intro
  exact .ite (fun _ => .seq fun _ => .pure hv) fun _ => .pure hv

/-! ### Operators -/

theorem atom_yields (hr : rules.Sound) : (atom rules).Yields IsValue := by
  unfold atom
  refine .seq fun t => ?_
  have hleaf : ∀ k : Kind, k = .number ∨ k = .constant ∨ k = .ellipsis →
      (leaf k t.place t.spelling).IsValue := by
    rintro k (rfl | rfl | rfl) <;> exact .leaf rfl True.intro
  split
  · exact identifier_value
  · exact .seq fun _ => .pure (hleaf _ (.inl rfl))
  · exact strings_yields hr
  · exact .ite (fun _ => .seq fun _ => .pure (hleaf _ (.inr (.inl rfl)))) fun _ => .fail
  · exact .seq fun _ => .pure (hleaf _ (.inr (.inr rfl)))
  · exact .seq fun _ => parenthesized_yields hr _
  · exact .seq fun _ => bracketed_yields hr _
  · exact .seq fun _ => braced_yields hr _
  · exact .fail

theorem trailer?_yields (hr : rules.Sound) (calls : Bool) {n : Node} (hn : n.IsValue) :
    (trailer? rules calls n).Yields fun o => ∀ m ∈ o, m.IsValue := by
  unfold trailer?
  refine .seq fun t => .ite (fun _ => .seq fun _ => ?_) fun _ =>
    .ite (fun _ => .seq fun _ => .seq fun start => ?_) fun _ =>
      .ite (fun _ => .seq fun _ => ?_) fun _ => .pure nofun
  · refine identifier_yields.bind fun name hname => .pure fun m hm => ?_
    cases hm
    refine .branch rfl (by simp [hn, hname.value]) ⟨_, _, rfl, role_as, role_as, ?_⟩
    rw [kind_as, hname.kind]
  · refine (Yields.items (subscript_yields hr) _).bind fun parts hparts => .seq fun _ => .pure fun m hm => ?_
    cases hm
    exact .branch rfl (List.forall_mem_cons.mpr ⟨isValue_as.mpr hn, isValue_bundle hparts⟩) True.intro
  · refine (arguments_yields hr _).bind fun args hargs => .pure fun m hm => ?_
    cases hm
    exact .branch rfl (by simp [hn, hargs]) ⟨_, _, rfl, role_as, role_as⟩

theorem trailers_yields (hr : rules.Sound) (calls : Bool) {n : Node} (hn : n.IsValue) :
    (trailers rules calls n).Yields IsValue :=
  .seq fun bound => .iterate (fun _ hm => trailer?_yields hr calls hm) bound hn

theorem powerFrom_yields (hr : rules.Sound) {base : Node} (hb : base.IsValue) :
    (powerFrom rules base).Yields IsValue := by
  refine .seq fun _ => .ite (fun _ => hr.factor.bind fun n hn => .pure ?_) fun _ => .pure hb
  exact .branch rfl (by simp [hb, hn]) True.intro

theorem primary_yields (hr : rules.Sound) : (primary rules).Yields IsValue := by
  have htrailed : (do trailers rules true (← atom rules) : Parse Node).Yields IsValue :=
    (atom_yields hr).bind fun n hn => trailers_yields hr true hn
  unfold primary
  refine .seq fun t => .seq fun _ => .ite (fun _ => ?_) fun _ => htrailed
  refine (atom_yields hr).bind fun n hn => (trailers_yields hr true hn).bind fun m hm => .pure ?_
  exact .branch rfl (List.forall_mem_singleton.mpr hm) True.intro

theorem factor_yields (hr : rules.Sound) : (factor rules).Yields IsValue := by
  unfold factor
  refine .seq fun t => .ite (fun _ => .seq fun _ => ?_) fun _ => ?_
  · exact hr.factor.bind fun n hn => .pure (.branch rfl (List.forall_mem_singleton.mpr hn) True.intro)
  · exact (primary_yields hr).bind fun n hn => powerFrom_yields hr hn

theorem chain_yields {marks : List Symbol} {operand : Parse Node} {left : Node}
    (ho : operand.Yields IsValue) (hl : left.IsValue) : (chain marks operand left).Yields IsValue := by
  unfold chain
  refine .seq fun bound => .iterate (fun n hn => ?_) bound hl
  refine .seq fun t => ?_
  split
  · refine .ite (fun _ => .seq fun _ => ho.bind fun m hm => .pure fun b hb => ?_) fun _ => .pure nofun
    cases hb
    exact .branch rfl (by simp [hn, hm]) True.intro
  · exact .pure nofun

section Ranks

variable {left : Node} (hr : rules.Sound) (hl : left.IsValue)
include hr

theorem term_yields : (term rules).Yields IsValue :=
  (factor_yields hr).bind fun _ hn => chain_yields (factor_yields hr) hn

include hl in
theorem sumFrom_yields : (sumFrom rules left).Yields IsValue :=
  (chain_yields (factor_yields hr) hl).bind fun _ hn => chain_yields (term_yields hr) hn

theorem sum_yields : (sum rules).Yields IsValue :=
  (factor_yields hr).bind fun _ hn => sumFrom_yields hr hn

include hl in
theorem shiftFrom_yields : (shiftFrom rules left).Yields IsValue :=
  (sumFrom_yields hr hl).bind fun _ hn => chain_yields (sum_yields hr) hn

theorem shift_yields : (shift rules).Yields IsValue :=
  (factor_yields hr).bind fun _ hn => shiftFrom_yields hr hn

include hl in
theorem conjunctionFrom_yields : (conjunctionFrom rules left).Yields IsValue :=
  (shiftFrom_yields hr hl).bind fun _ hn => chain_yields (shift_yields hr) hn

theorem bitConjunction_yields : (bitConjunction rules).Yields IsValue :=
  (factor_yields hr).bind fun _ hn => conjunctionFrom_yields hr hn

include hl in
theorem exclusiveFrom_yields : (exclusiveFrom rules left).Yields IsValue :=
  (conjunctionFrom_yields hr hl).bind fun _ hn => chain_yields (bitConjunction_yields hr) hn

theorem exclusive_yields : (exclusive rules).Yields IsValue :=
  (factor_yields hr).bind fun _ hn => exclusiveFrom_yields hr hn

include hl in
theorem bitwiseFrom_yields : (bitwiseFrom rules left).Yields IsValue :=
  (exclusiveFrom_yields hr hl).bind fun _ hn => chain_yields (exclusive_yields hr) hn

theorem bitwise_yields : (bitwise rules).Yields IsValue :=
  (factor_yields hr).bind fun _ hn => bitwiseFrom_yields hr hn

end Ranks

/-- One operand, or several under a node of their own. -/
theorem joined_yields {kind : Kind} {ask : Parse Bool} {operand : Parse Node} (hk : kind.standsAnywhere = true)
    (hs : ∀ ns, Shape kind "" ns) (ho : operand.Yields IsValue) :
    (do
      let first ← operand
      let more ← many do
        if ← ask then return some (← operand) else return none
      if more.isEmpty then return first else return branch kind first.place (first :: more) :
        Parse Node).Yields IsValue := by
  refine ho.bind fun first hf => (Yields.many (Q := IsValue) ?_).bind fun more hmore =>
    .ite (fun _ => .pure hf) fun _ => .pure ?_
  · refine .seq fun _ => .ite (fun _ => ho.bind fun n hn => .pure fun m hm => ?_) fun _ => .pure nofun
    cases hm
    exact hn
  · exact .branch hk (List.forall_mem_cons.mpr ⟨hf, hmore⟩) (hs _)

theorem comparison_yields (hr : rules.Sound) : (comparison rules).Yields IsValue :=
  joined_yields rfl (fun _ => True.intro) (bitwise_yields hr)

theorem inversion_yields (hr : rules.Sound) : (inversion rules).Yields IsValue := by
  refine .seq fun t => .seq fun _ => .ite (fun _ => ?_) fun _ => comparison_yields hr
  exact hr.inversion.bind fun n hn => .pure (.branch rfl (List.forall_mem_singleton.mpr hn) True.intro)

theorem disjunction_yields (hr : rules.Sound) : (disjunction rules).Yields IsValue :=
  joined_yields rfl (fun _ => True.intro)
    (joined_yields rfl (fun _ => True.intro) (inversion_yields hr))

/-! ### Parameters -/

/-- A sound node that may stand in a list of parameters. -/
structure IsParameter (n : Node) : Prop where
  sound : n.Sound
  listed : ∀ (k : Kind) (r : Role), k.isParameterList = true → k.fits r n.kind = true

theorem IsParameter.of_value {n : Node} (h : n.IsValue) : IsParameter n := ⟨h.sound, fun _ _ _ => h.fits⟩

theorem IsParameter.of_target {n : Node} (h : n.IsTarget) : IsParameter n :=
  ⟨h.sound, fun _ _ hk => h.fits (Kind.holdsTargets_of_isParameterList hk)⟩

theorem hint_yields (hr : rules.Sound) : (hint rules).Yields IsTypeHint := by
  refine .seq fun t => .ite (fun _ => .seq fun _ => hr.typeHint) fun _ => hr.typeHint

theorem typeMark_yields (hr : rules.Sound) (typed : Bool) :
    (typeMark rules typed).Yields fun ns => ∀ n ∈ ns, IsTypeHint n := by
  have hnil : ∀ n ∈ ([] : List Node), IsTypeHint n := List.forall_mem_nil _
  unfold typeMark
  refine .ite (fun _ => .seq fun _ => .ite (fun _ => ?_) fun _ => .pure hnil) fun _ => .pure hnil
  exact (hint_yields hr).bind fun n hn => .pure (List.forall_mem_singleton.mpr hn.as)

/-- A parameter with its type. -/
theorem isParameter_typed {place : Location} {first : Node} {types : List Node} (hfirst : first.Sound)
    (hfits : Kind.fits .typedParameter first.role first.kind = true) (hrole : first.role = .part)
    (htypes : ∀ n ∈ types, IsTypeHint n) : IsParameter (branch .typedParameter place (first :: types)) := by
  constructor
  · refine sound_branch ?_ ?_ ?_
    · exact List.forall_mem_cons.mpr ⟨hfits, fun n hn => (htypes n hn).value.fits⟩
    · exact List.forall_mem_cons.mpr ⟨hfirst, fun n hn => (htypes n hn).value.sound⟩
    · refine List.forall_mem_cons.mpr ⟨fun _ => by rw [hrole]; decide, fun n hn hk => ?_⟩
      exact absurd (htypes n hn).kind hk
  · intro k r hk
    simp [Kind.fits, Kind.isPattern, Kind.isParameter, hk]

theorem plainParameter_yields (hr : rules.Sound) (typed : Bool) (order : ParameterOrder) :
    (plainParameter rules typed order).Yields fun r => IsParameter r.1 := by
  unfold plainParameter
  refine identifier_yields.bind fun name hname => .seq fun order => ?_
  refine (typeMark_yields hr typed).bind fun types ht => .seq fun _ => .ite (fun _ => ?_) fun _ => ?_
  · refine hr.test.bind fun value hv => .pure ?_
    have hall : ∀ n ∈ name.as .name :: types ++ [value.as .value], n.IsValue := by
      intro n hn
      simp only [List.cons_append, List.mem_cons, List.mem_append, List.not_mem_nil, or_false] at hn
      obtain rfl | hn | rfl := hn
      · exact isValue_as.mpr hname.value
      · exact (ht n hn).value
      · exact isValue_as.mpr hv
    constructor
    · refine sound_branch (fun n hn => (hall n hn).fits) (fun n hn => (hall n hn).sound) ?_
      split <;> exact True.intro
    · intro k r hk
      simp only [branch, kind_mk]
      split <;> simp [Kind.fits, Kind.isPattern, Kind.isParameter, hk]
  · have hlone : (if types.isEmpty then return (name, { order with pending := none })
        else return (branch .typedParameter name.place (name :: types), { order with pending := none }) :
          Parse (Node × ParameterOrder)).Yields fun r => IsParameter r.1 := by
      refine .ite (fun _ => .pure (.of_value hname.value)) fun _ => .pure ?_
      exact isParameter_typed hname.value.sound hname.value.fits hname.role ht
    exact .ite (fun _ => .seq fun _ => hlone) fun _ => hlone

theorem splatParameter_yields (hr : rules.Sound) (typed : Bool) {kind : Kind} (place : Location)
    (order : ParameterOrder) (hk : kind = .listSplatPattern ∨ kind = .dictionarySplatPattern) :
    (splatParameter rules typed kind place order).Yields fun r => IsParameter r.1 := by
  unfold splatParameter
  refine identifier_yields.bind fun name hname => .seq fun order => ?_
  extract_lets splat finish
  have hsplat : splat.Sound := by
    refine sound_branch (List.forall_mem_singleton.mpr hname.value.fits)
      (List.forall_mem_singleton.mpr hname.value.sound) ?_
    obtain rfl | rfl := hk <;> exact True.intro
  have hfinish : ∀ types : List Node, (∀ n ∈ types, IsTypeHint n) →
      (finish types).Yields fun r => IsParameter r.1 := by
    intro types ht
    refine .ite (fun _ => .pure ⟨hsplat, fun k r hlist => ?_⟩) fun _ => .pure ?_
    · obtain rfl | rfl := hk
      · exact Kind.holdsTargets_of_isParameterList hlist
      · simp [splat, Kind.fits, Kind.isPattern, hlist]
    · refine isParameter_typed hsplat ?_ rfl ht
      obtain rfl | rfl := hk <;> rfl
  refine .ite (fun _ => .seq fun _ => .ite (fun _ => ?_) fun _ => ?_) fun _ => ?_
  · refine hr.typeHint.bind fun n hn => ?_
    exact (Yields.pure (List.forall_mem_singleton.mpr hn.as)).bind hfinish
  · exact (Yields.pure (List.forall_mem_nil _)).bind hfinish
  · exact (typeMark_yields hr typed).bind hfinish

theorem parameter_yields (hr : rules.Sound) (typed : Bool) (order : ParameterOrder) :
    (parameter rules typed order).Yields fun r => IsParameter r.1 := by
  unfold parameter
  refine .seq fun t => ?_
  extract_lets misplaced
  refine .seq fun _ => .ite (fun _ => .seq fun _ => .pure (.of_value (.leaf rfl True.intro))) fun _ =>
    .seq fun _ => .ite (fun _ => .seq fun _ => ?_) fun _ =>
      .seq fun _ => .ite (fun _ => .seq fun _ => ?_) fun _ =>
        .seq fun _ => .ite (fun _ => .seq fun _ => ?_) fun _ => plainParameter_yields hr typed order
  · refine .seq fun second => .ite (fun _ => ?_) fun _ => .pure (.of_value (.leaf rfl True.intro))
    exact splatParameter_yields hr typed _ _ (.inl rfl)
  · exact (splatParameter_yields hr typed _ _ (.inr rfl)).bind fun r hp => .pure hp
  · refine (parenthesized_yields hr _).bind fun whole hwhole => (asTarget_yields hwhole.sound).bind fun n hn => ?_
    refine .seq fun _ => .ite (fun _ => hr.test.bind fun value hv => .pure ⟨?_, ?_⟩) fun _ =>
      .pure (.of_target hn)
    · refine sound_branch ?_ (by simp [hn.sound, hv.sound]) True.intro
      refine List.forall_mem_cons.mpr ⟨?_, List.forall_mem_singleton.mpr (isValue_as.mpr hv).fits⟩
      rw [kind_as, role_as]
      exact hn.fits rfl
    · intro k r hk
      simp [Kind.fits, Kind.isPattern, Kind.isParameter, hk]

theorem parameters_yields (hr : rules.Sound) (typed : Bool) (close : Symbol) :
    (parameters rules typed close).Yields fun ns => ∀ n ∈ ns, IsParameter n := by
  unfold parameters
  refine .seq fun bound => (Yields.iterate (Q := fun s => ∀ n ∈ s.2.1, IsParameter n) (fun s hs => ?_) bound
    (List.forall_mem_nil _)).bind fun s hs => ?_
  · obtain ⟨order, seen, more⟩ := s
    refine .seq fun t => .ite (fun _ => .pure nofun) fun _ => ?_
    refine (parameter_yields hr typed order).bind fun r hp => .seq fun _ => .pure fun s' hs' => ?_
    cases hs'
    exact List.forall_mem_cons.mpr ⟨hp, hs⟩
  · obtain ⟨order, seen, more⟩ := s
    have hseen : ∀ n ∈ seen.reverse, IsParameter n := fun n hn => hs n (List.mem_reverse.mp hn)
    dsimp only
    split
    · exact .seq fun _ => .pure hseen
    · exact .pure hseen

theorem sound_parameterList {k : Kind} {place : Location} {ns : List Node} (hk : k.isParameterList = true)
    (h : ∀ n ∈ ns, IsParameter n) : (branch k place ns).Sound := by
  refine sound_branch (fun n hn => (h n hn).listed k _ hk) (fun n hn => (h n hn).sound) ?_
  revert hk
  cases k <;> simp [Kind.isParameterList, Shape]

theorem lambda_yields (hr : rules.Sound) : (lambda rules).Yields IsValue := by
  unfold lambda
  refine .seq fun t => .seq fun start => (parameters_yields hr _ _).bind fun params hp => .seq fun _ =>
    hr.test.bind fun body hb => .pure ⟨?_, rfl⟩
  have hlist : (branch .lambdaParameters start.place params).Sound := sound_parameterList rfl hp
  have hbody : (body.as .body).IsValue := isValue_as.mpr hb
  have hrole : (body.as .body).role ≠ .parameters := by
    rw [role_as]
    decide
  split
  · exact sound_branch (List.forall_mem_singleton.mpr hbody.fits) (List.forall_mem_singleton.mpr hbody.sound)
      (List.forall_mem_singleton.mpr fun h => absurd h hrole)
  · refine sound_branch ?_ (by simp [hlist, hb.sound]) ?_
    · exact List.forall_mem_cons.mpr ⟨rfl, List.forall_mem_singleton.mpr hbody.fits⟩
    · refine List.forall_mem_cons.mpr ⟨fun _ => rfl, ?_⟩
      exact List.forall_mem_singleton.mpr fun h => absurd h hrole

/-! ### Whole expressions -/

theorem test_yields (hr : rules.Sound) : (test rules).Yields IsValue := by
  unfold test
  refine .seq fun t => .ite (fun _ => lambda_yields hr) fun _ => ?_
  refine (disjunction_yields hr).bind fun first hf => .seq fun _ => .ite (fun _ => ?_) fun _ => .pure hf
  refine (disjunction_yields hr).bind fun condition hc => .seq fun _ => hr.test.bind fun other ho => .pure ?_
  exact .branch rfl (by simp [hf, hc, ho]) True.intro

theorem named_yields (hr : rules.Sound) : (named rules).Yields IsValue := by
  unfold named
  refine .seq fun t => .seq fun second => .ite (fun _ => ?_) fun _ => test_yields hr
  refine identifier_value.bind fun name hname => .seq fun _ => hr.test.bind fun value hv => .pure ?_
  exact .branch rfl (by simp [hname, hv]) True.intro

theorem spread_yields (hr : rules.Sound) (start : Location) : (spread rules start).Yields IsValue := by
  have hsplat : ∀ {n : Node}, n.IsValue → (branch .listSplat start [n]).IsValue :=
    fun h => .branch rfl (List.forall_mem_singleton.mpr h) True.intro
  have hwhole : ∀ {n : Node}, n.IsValue →
      (do bitwiseFrom rules (← powerFrom rules n) : Parse Node).Yields IsValue :=
    fun h => (powerFrom_yields hr h).bind fun _ hn => bitwiseFrom_yields hr hn
  unfold spread
  refine .seq fun t => .ite (fun _ => ?_) fun _ => ?_
  · refine identifier_value.bind fun name hname => (trailers_yields hr _ hname).bind fun operand ho => ?_
    exact (trailers_yields hr _ (hsplat ho)).bind fun whole hw => hwhole hw
  · refine (atom_yields hr).bind fun n hn => (trailers_yields hr _ hn).bind fun operand ho => ?_
    exact .ite (fun _ => hwhole (hsplat ho)) fun _ => .fail

theorem looseElement_yields (hr : rules.Sound) : (looseElement rules).Yields IsValue := by
  unfold looseElement
  refine .seq fun t => .seq fun _ => .ite (fun _ => spread_yields hr _) fun _ => ?_
  refine (test_yields hr).bind fun first hf => .seq fun mark => .ite (fun _ => ?_) fun _ => .pure hf
  refine .seq fun _ => .seq fun _ => hr.test.bind fun value hv => .pure ?_
  exact .branch rfl (by simp [hf, hv]) True.intro

theorem expressionsOf_yields {item : Parse Node} (h : item.Yields IsValue) :
    (expressionsOf item).Yields IsValue := by
  unfold expressionsOf
  refine (Yields.items h _).bind fun r hall => ?_
  split
  · exact .pure (hall _ List.mem_cons_self)
  · split
    · exact .pure (.branch rfl hall True.intro)
    · exact .fail

/-! ### Annotations -/

theorem typeArgument_yields (hr : rules.Sound) : (typeArgument rules).Yields IsTypeHint := by
  unfold typeArgument
  refine hr.typeHint.bind fun first hf => .seq fun _ => .ite (fun _ => ?_) fun _ => .pure hf
  refine (hint_yields hr).bind fun second hs => .pure (.branch (List.forall_mem_singleton.mpr ?_))
  exact .branch rfl (by simp [hf.value, hs.value]) True.intro

theorem typeArguments_yields (hr : rules.Sound) (start : Location) :
    (typeArguments rules start).Yields IsValue := by
  unfold typeArguments
  refine (Yields.items (typeArgument_yields hr) _).bind fun args ha => .seq fun _ => .pure ?_
  exact .branch rfl (isValue_bundle fun n hn => (ha n hn).value) True.intro

theorem typeTrailer?_yields (hr : rules.Sound) {n : Node} (hn : n.IsValue) :
    (typeTrailer? rules n).Yields fun o => ∀ m ∈ o, m.IsValue := by
  have hwrapped : (branch .type n.place [n]).IsValue :=
    (IsTypeHint.branch (List.forall_mem_singleton.mpr hn)).value
  unfold typeTrailer?
  refine .seq fun _ => .ite (fun _ => ?_) fun _ => .seq fun _ => .ite (fun _ => ?_) fun _ => .pure nofun
  · refine identifier_value.bind fun name hname => .pure fun m hm => ?_
    cases hm
    exact .branch rfl (by simp [hwrapped, hname]) True.intro
  · refine (hint_yields hr).bind fun other ho => .pure fun m hm => ?_
    cases hm
    exact .branch rfl (by simp [hwrapped, ho.value]) True.intro

theorem typeHint_yields (hr : rules.Sound) : (typeHint rules).Yields IsTypeHint := by
  have hsplat : ∀ t : Token,
      (do return branch .type t.place [branch .splatType t.place [← identifier]] : Parse Node).Yields
        IsTypeHint := by
    intro t
    refine identifier_value.bind fun name hname => .pure (.branch (List.forall_mem_singleton.mpr ?_))
    exact .branch rfl (List.forall_mem_singleton.mpr hname) True.intro
  unfold typeHint
  refine .seq fun t => .seq fun second => .ite (fun _ => .seq fun _ => ?_) fun _ => .ite (fun _ => ?_) fun _ => ?_
  · exact .ite (fun _ => .seq fun _ => hsplat t) fun _ => hsplat t
  · refine identifier_value.bind fun name hname => .seq fun _ => (typeArguments_yields hr _).bind fun args ha => ?_
    have hgeneric : (branch .genericType t.place [name, args]).IsValue :=
      .branch rfl (by simp [hname, ha]) True.intro
    refine .seq fun bound => ?_
    refine (Yields.iterate (fun _ hm => typeTrailer?_yields hr hm) bound hgeneric).bind fun n hn => .pure ?_
    exact .branch (List.forall_mem_singleton.mpr hn)
  · exact (test_yields hr).bind fun n hn => .pure (.branch (List.forall_mem_singleton.mpr hn))

theorem typeParameter_yields (hr : rules.Sound) : (typeParameter rules).Yields IsTypeHint := by
  unfold typeParameter
  refine .seq fun t => .ite (fun _ => .seq fun _ => ?_) fun _ => ?_
  · refine identifier_value.bind fun name hname => .pure (.branch (List.forall_mem_singleton.mpr ?_))
    exact .branch rfl (List.forall_mem_singleton.mpr hname) True.intro
  refine identifier_value.bind fun n hn => ?_
  have hname : (branch .type t.place [n]).IsTypeHint := .branch (List.forall_mem_singleton.mpr hn)
  refine .seq fun _ => .ite (fun _ => (hint_yields hr).bind fun bound hb => .pure ?_) fun _ => .pure hname
  refine .branch (List.forall_mem_singleton.mpr ?_)
  exact .branch rfl (by simp [hname.value, hb.value]) True.intro

theorem typeParameters_yields (hr : rules.Sound) :
    (typeParameters rules).Yields fun ns => ∀ n ∈ ns, n.IsValue ∧ n.role = .part := by
  unfold typeParameters
  refine .seq fun t => .seq fun _ => .ite (fun _ => ?_) fun _ => .pure (List.forall_mem_nil _)
  refine (Yields.items (typeParameter_yields hr) _).bind fun r hp => .seq fun _ => .pure ?_
  exact List.forall_mem_singleton.mpr ⟨.branch rfl (fun n hn => (hp n hn).value) True.intro, rfl⟩

end Grammar

end Vetting.Python
