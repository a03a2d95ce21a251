import Vetting.Proofs.Python.Expressions
import Vetting.Proofs.Python.Flaws

/-!
# Trees of programs

Every rule of the grammar of statements gives a sound node. With the rules of expressions this closes the circle
of the grammar: by induction on its depth all rules give what the others ask of them (`sound_rulesOfDepth`), so
the tree of every program is sound (`sound_of_read`).
-/

namespace Vetting.Python

open Parse Node

namespace Grammar

variable {rules : Rules} {n : Node} {k : Kind} {place : Location} {children : List Node}

/-! ### Parts of statements -/

/-- A sound node that may stand in every statement and in every clause. -/
structure IsPart (n : Node) : Prop where
  sound : n.Sound
  fits : ∀ k : Kind, k.isStatement = true ∨ k.isClause = true → k.fits n.role n.kind = true

structure IsClause (n : Node) : Prop where
  sound : n.Sound
  clause : n.kind.isClause = true

structure IsStatement (n : Node) : Prop where
  sound : n.Sound
  statement : n.kind.isStatement = true

theorem IsPart.of_value (h : n.IsValue) : IsPart n := ⟨h.sound, fun _ _ => h.fits⟩

theorem IsPart.of_valueAs {r : Role} (h : n.IsValue) : IsPart (n.as r) := .of_value (isValue_as.mpr h)

theorem IsPart.of_block (h : n.IsBlock) : IsPart (n.as .body) := by
  refine ⟨sound_as.mpr h.sound, fun k hk => ?_⟩
  rw [kind_as, role_as, h.kind]
  simpa [Kind.fits, Kind.isPattern, Kind.isParameter, Kind.isAssignment, Kind.isImportPart,
    Kind.isStatement] using hk

theorem IsClause.as {r : Role} (h : IsClause n) : IsClause (n.as r) :=
  ⟨sound_as.mpr h.sound, by rw [kind_as, h.clause]⟩

theorem fits_clause (hk : k.isStatement = true) (h : IsClause n) : k.fits n.role n.kind = true := by
  have hc := h.clause
  revert hc
  cases n.kind <;> simp +decide [Kind.isClause, Kind.fits, hk]

theorem isClause_branch (hk : k.isClause = true) (hc : ∀ c ∈ children, IsPart c)
    (hs : Shape k "" children) : IsClause (branch k place children) :=
  ⟨sound_branch (fun c h => (hc c h).fits k (.inr hk)) (fun c h => (hc c h).sound) hs, hk⟩

theorem isStatement_mk {r : Role} {t : String} (hk : k.isStatement = true)
    (hc : ∀ c ∈ children, IsPart c ∨ IsClause c) (hs : Shape k t children) : IsStatement (.mk k r place t children) := by
  refine ⟨sound_mk (fun c h => ?_) (fun c h => ?_) hs, hk⟩
  · exact (hc c h).elim (fun hp => hp.fits k (.inl hk)) (fits_clause hk)
  · exact (hc c h).elim IsPart.sound IsClause.sound

theorem isStatement_branch (hk : k.isStatement = true) (hc : ∀ c ∈ children, IsPart c ∨ IsClause c)
    (hs : Shape k "" children) : IsStatement (branch k place children) :=
  isStatement_mk hk hc hs

/-- A statement made of expressions. -/
theorem isStatement_values (hk : k.isStatement = true) (hc : ∀ c ∈ children, c.IsValue)
    (hs : Shape k "" children) : IsStatement (branch k place children) :=
  isStatement_branch hk (fun c h => .inl (.of_value (hc c h))) hs

/-! ### Names of modules -/

/-- A step of a path gives the text of a joint and its name. -/
theorem exists_joints {more : List (List Char × Node)}
    (h : ∀ m ∈ more, ∃ j : Joint, m = (j.text, j.name) ∧ IsName j.name) :
    ∃ joints : List Joint, more = joints.map (fun j => (j.text, j.name)) ∧ ∀ j ∈ joints, IsName j.name := by
  induction more with
  | nil => exact ⟨[], rfl, List.forall_mem_nil _⟩
  | cons m rest ih =>
    obtain ⟨⟨j, rfl, hj⟩, hrest⟩ := List.forall_mem_cons.mp h
    obtain ⟨joints, rfl, hjs⟩ := ih hrest
    exact ⟨j :: joints, rfl, List.forall_mem_cons.mpr ⟨hj, hjs⟩⟩

structure IsModulePath (n : Node) : Prop where
  sound : n.Sound
  kind : n.kind = .dottedName
  parts : ∀ c ∈ n.children, c.role = .part

theorem dottedName_yields : dottedName.Yields IsModulePath := by
  unfold dottedName
  refine Yields.expectName.bind fun first hfirst => (Yields.many (Q := fun m =>
    ∃ j : Joint, m = (j.text, j.name) ∧ IsName j.name) ?_).bind fun more hmore => .pure ?_
  · refine .seq fun point => .seq fun _ => .ite (fun _ => ?_) fun _ => .pure nofun
    refine Yields.expectName.bind fun name hname => .pure fun m hm => ?_
    cases hm
    refine ⟨⟨point.gap, name.gap, identifierOf name⟩, ?_, isName_identifierOf hname⟩
    simp [Joint.text, identifierOf, Token.spelling]
  · obtain ⟨joints, rfl, hjoints⟩ := exists_joints hmore
    have hall : ∀ n ∈ identifierOf first :: joints.map Joint.name, IsName n := by
      refine List.forall_mem_cons.mpr ⟨isName_identifierOf hfirst, fun n hn => ?_⟩
      obtain ⟨j, hj, rfl⟩ := List.mem_map.mp hn
      exact hjoints j hj
    simp only [List.map_map, List.flatMap_map]
    refine ⟨sound_mk (fun n hn => (hall n hn).value.fits) (fun n hn => (hall n hn).value.sound) ?_, rfl,
      fun n hn => (hall n hn).role⟩
    refine ⟨fun n hn => (hall n hn).kind, _, joints, rfl, ?_⟩
    simp [identifierOf, Token.spelling]

/-- A name that an import lists. -/
structure IsListing (n : Node) : Prop where
  sound : n.Sound
  listed : n.IsListed

theorem importedName_yields : importedName.Yields IsListing := by
  unfold importedName aliased
  refine dottedName_yields.bind fun target ht => ?_
  refine Yields.bind (P := fun n => n.Sound ∧ (n.kind = .dottedName ∨ n.kind = .aliasedImport) ∧
    (n.kind = .dottedName → ∀ c ∈ n.children, c.role = .part)) ?_
    fun n hn => .pure ⟨sound_as.mpr hn.1, role_as, by rw [kind_as, children_as]; exact hn.2⟩
  refine .seq fun _ => .ite (fun _ => ?_) fun _ => .pure ⟨ht.sound, .inl ht.kind, fun _ => ht.parts⟩
  refine identifier_yields.bind fun newName hnew => .pure ⟨?_, .inr rfl, nofun⟩
  refine sound_branch ?_ (by simp [ht.sound, hnew.value.sound]) ?_
  · refine List.forall_mem_cons.mpr ⟨?_, List.forall_mem_singleton.mpr (isValue_as.mpr hnew.value).fits⟩
    rw [kind_as, role_as, ht.kind]
    rfl
  · refine ⟨_, _, rfl, role_as, ?_, role_as, ?_⟩
    · rw [kind_as, ht.kind]
    · rw [kind_as, hnew.kind]

theorem importList_yields : importList.Yields fun ns => ∀ n ∈ ns, IsListing n := by
  unfold importList
  refine (Yields.items importedName_yields _).bind fun r hnames => .seq fun t => ?_
  exact .ite (fun _ => .seq fun _ => .pure hnames) fun _ => .pure hnames

theorem fromList_yields : fromList.Yields fun ns => ∀ n ∈ ns, IsListing n := by
  unfold fromList
  refine .seq fun _ => .ite (fun _ => ?_) fun _ => importList_yields
  exact (Yields.items importedName_yields _).bind fun r hnames => .seq fun _ => .pure hnames

theorem IsListing.fits (h : IsListing n) (hk : k.isImport = true) : k.fits n.role n.kind = true := by
  obtain ⟨-, hr, hn | hn, -⟩ := h <;>
    simp [hr, hn, hk, Kind.fits, Kind.isPattern, Kind.isParameter, Kind.isAssignment]

theorem isStatement_import (hk : k.isImport = true) (hc : ∀ c ∈ children, IsListing c)
    (hs : Shape k "" children) : IsStatement (branch k place children) :=
  ⟨sound_branch (fun c h => (hc c h).fits hk) (fun c h => (hc c h).sound) hs,
    Kind.isStatement_of_isImport hk⟩

theorem importStatement_yields : importStatement.Yields IsStatement :=
  .seq fun _ => importList_yields.bind fun _ h => .pure (isStatement_import rfl h fun c hc => (h c hc).listed)

/-- The module of a from-import. -/
structure IsSource (n : Node) : Prop where
  sound : n.Sound
  kind : n.kind = .dottedName ∨ n.kind = .relativeImport

theorem isStatement_importFrom {source : Node} {names : List Node} (hsource : IsSource source)
    (hnames : ∀ c ∈ names, IsListing c ∨ c.Sound ∧ c.role = .part ∧ c.kind = .wildcardImport) :
    IsStatement (branch .importFrom place (source.as .moduleName :: names)) := by
  refine ⟨sound_branch ?_ ?_ ?_, rfl⟩
  · refine List.forall_mem_cons.mpr ⟨?_, fun c hc => ?_⟩
    · rw [kind_as, role_as]
      obtain hk | hk := hsource.kind <;> rw [hk] <;> rfl
    · obtain h | ⟨-, hr, hk⟩ := hnames c hc
      · exact h.fits rfl
      · rw [hr, hk]
        rfl
  · refine List.forall_mem_cons.mpr ⟨sound_as.mpr hsource.sound, fun c hc => ?_⟩
    exact (hnames c hc).elim IsListing.sound And.left
  · refine ⟨_, names, rfl, role_as, by rw [kind_as]; exact hsource.kind, fun c hc => ?_⟩
    exact (hnames c hc).imp IsListing.listed And.right

theorem importFrom_yields : importFrom.Yields IsStatement := by
  unfold importFrom
  refine .seq fun t => .seq fun first => .ite (fun _ => .seq fun _ => .seq fun _ => ?_) fun _ => ?_
  · exact fromList_yields.bind fun _ h => .pure (isStatement_import rfl h fun c hc => (h c hc).listed)
  refine .seq fun dots => ?_
  extract_lets finish
  have hfinish : ∀ source, IsSource source → (finish source).Yields IsStatement := by
    intro source hsource
    refine .seq fun _ => .seq fun star => .seq fun _ => .ite (fun _ => .pure ?_) fun _ => ?_
    · refine isStatement_importFrom hsource (List.forall_mem_singleton.mpr (.inr ⟨?_, rfl, rfl⟩))
      exact sound_leaf rfl
    · refine fromList_yields.bind fun names hnames => .seq fun _ => .pure ?_
      exact isStatement_importFrom hsource fun c hc => .inl (hnames c hc)
  have hrelative : ∀ ns : List Node, (∀ c ∈ ns, IsModulePath c) →
      IsSource (branch .relativeImport first.place ns) := by
    intro ns h
    refine ⟨sound_branch (fun c hc => ?_) (fun c hc => (h c hc).sound) fun c hc => (h c hc).kind, .inr rfl⟩
    rw [(h c hc).kind]
    rfl
  refine .seq fun second => .ite (fun _ => ?_) fun _ => .ite (fun _ => ?_) fun _ => ?_
  · exact dottedName_yields.bind fun n hn => hfinish n ⟨hn.sound, .inl hn.kind⟩
  · exact dottedName_yields.bind fun n hn => hfinish _ (hrelative [n] (List.forall_mem_singleton.mpr hn))
  · exact hfinish _ (hrelative [] (List.forall_mem_nil _))

/-! ### Assignments -/

theorem valueOrYield_yields (hr : rules.Sound) : (valueOrYield rules).Yields IsValue :=
  .seq fun _ => .ite (fun _ => yieldExpression_yields hr) fun _ => hr.list

structure IsAssignment (n : Node) : Prop where
  sound : n.Sound
  assignment : n.kind.isAssignment = true

/-- An expression statement holds a value or an assignment. -/
theorem isStatement_assignment (h : IsAssignment n) :
    IsStatement (branch .expressionStatement place [n]) := by
  refine ⟨sound_branch (List.forall_mem_singleton.mpr ?_) (List.forall_mem_singleton.mpr h.sound)
    True.intro, rfl⟩
  have hk := h.assignment
  revert hk
  cases n.kind <;> simp [Kind.isAssignment, Kind.fits, Kind.isPattern, Kind.isParameter]

theorem isStatement_value (h : n.IsValue) : IsStatement (branch .expressionStatement place [n]) :=
  isStatement_values rfl (List.forall_mem_singleton.mpr h) True.intro

theorem assignmentFrom_yields (hr : rules.Sound) (bound : Nat) {first : Node} (hf : first.IsValue) :
    (assignmentFrom rules bound first).Yields fun n => n.Sound ∧ n.kind = .assignment := by
  induction bound generalizing first with
  | zero => exact .fail
  | succ bound ih =>
    unfold assignmentFrom
    refine (asTarget_yields hf.sound).bind fun left hl => .seq fun _ => (valueOrYield_yields hr).bind
      fun value hv => .seq fun _ => .ite (fun _ => (ih hv).bind fun right hright => .pure ⟨?_, rfl⟩) fun _ =>
        .pure ⟨?_, rfl⟩
    · refine sound_assigned rfl hl ?_ fun _ => True.intro
      refine List.forall_mem_singleton.mpr ⟨sound_as.mpr hright.1, ?_⟩
      rw [kind_as, role_as, hright.2]
      rfl
    · refine sound_assigned rfl hl ?_ fun _ => True.intro
      exact List.forall_mem_singleton.mpr ⟨sound_as.mpr hv.sound, (isValue_as.mpr hv).fits⟩

theorem expressionStatement_yields (hr : rules.Sound) :
    (expressionStatement rules).Yields IsStatement := by
  have hbehind : ∀ {k : Kind} {ns : List Node}, (∀ n ∈ ns, n.IsValue) →
      ∀ n ∈ ns, n.Sound ∧ k.fits n.role n.kind = true :=
    fun h n hn => ⟨(h n hn).sound, (h n hn).fits⟩
  unfold expressionStatement
  refine .seq fun t => .ite (fun _ => ?_) fun _ => hr.list.bind fun first hf => .seq fun t => ?_
  · exact (yieldExpression_yields hr).bind fun value hv => .pure (isStatement_value hv)
  refine .ite (fun _ => ?_) fun _ => .ite (fun _ => ?_) fun _ => .ite (fun _ => ?_) fun _ =>
    .pure (isStatement_value hf)
  · refine .seq fun bound => (assignmentFrom_yields hr bound hf).bind fun n hn => .pure ?_
    exact isStatement_assignment ⟨hn.1, by rw [hn.2]; rfl⟩
  · refine (asTarget_yields hf.sound).bind fun left hl => .seq fun _ => (valueOrYield_yields hr).bind
      fun value hv => .pure (isStatement_assignment ⟨?_, rfl⟩)
    refine sound_assigned rfl hl (hbehind ?_) fun _ => True.intro
    exact List.forall_mem_singleton.mpr (isValue_as.mpr hv)
  · refine (asTarget_yields hf.sound).bind fun left hl => .seq fun _ => ?_
    extract_lets join
    have hannotated : ∀ {type : Node} {values : List Node}, type.IsTypeHint → (∀ n ∈ values, n.IsValue) →
        IsStatement (branch .expressionStatement first.place
          [branch .assignment first.place (left.as .left :: type.as .type :: values)]) := by
      intro type values ht hv
      refine isStatement_assignment ⟨?_, rfl⟩
      refine sound_assigned rfl hl (hbehind ?_) fun _ => True.intro
      exact List.forall_mem_cons.mpr ⟨isValue_as.mpr ht.value, hv⟩
    have hjoin : ∀ u, (join u).Yields IsStatement := by
      intro u
      refine (hint_yields hr).bind fun type ht => .seq fun _ => .ite (fun _ => ?_) fun _ => ?_
      · refine (valueOrYield_yields hr).bind fun value hv => .pure (hannotated ht ?_)
        exact List.forall_mem_singleton.mpr (isValue_as.mpr hv)
      · exact .pure (hannotated ht (List.forall_mem_nil _))
    exact .ite (fun _ => .seq hjoin) fun _ => hjoin ()

/-! ### Simple statements -/

theorem printStatement_yields (hr : rules.Sound) : (printStatement rules).Yields IsStatement := by
  unfold printStatement
  refine .seq fun start => .seq fun t => .seq fun _ => (Yields.items hr.test _).bind fun r hvalues =>
    .seq fun text => .seq fun _ => .pure ?_
  exact isStatement_mk rfl (fun c h => .inl (.of_value (hvalues c h))) True.intro

theorem execStatement_yields (hr : rules.Sound) : (execStatement rules).Yields IsStatement := by
  unfold execStatement
  refine .seq fun t => .seq fun second => ?_
  extract_lets finish
  have hfinish : ∀ code : Node, code.IsValue → (finish code).Yields IsStatement := by
    intro code hcode
    refine .seq fun _ => .seq fun _ => .ite (fun _ => ?_) fun _ => ?_
    · refine (Yields.items hr.test _).bind fun r hscope => .pure ?_
      exact isStatement_values rfl (List.forall_mem_cons.mpr ⟨hcode, hscope⟩) True.intro
    · exact .pure (isStatement_values rfl (List.forall_mem_singleton.mpr hcode) True.intro)
  refine .ite (fun _ => identifier_value.bind hfinish) fun _ => (string_yields hr).bind hfinish

theorem nameStatement_yields (hr : rules.Sound) : (nameStatement rules).Yields IsStatement := by
  unfold nameStatement
  refine .seq fun t => .seq fun second => .ite (fun _ => .seq fun third => .ite (fun _ => ?_) fun _ =>
    .ite (fun _ => .orElse ?_ ?_) fun _ => ?_) fun _ => .ite (fun _ => ?_) fun _ => ?_
  · exact printStatement_yields hr
  · refine (expressionStatement_yields hr).bind fun n hn => .seq fun _ => ?_
    exact .ite (fun _ => .pure hn) fun _ => .fail
  · exact printStatement_yields hr
  · exact expressionStatement_yields hr
  · exact execStatement_yields hr
  · exact expressionStatement_yields hr

theorem declaredNames_yields {kind : Kind} (start : Location)
    (hk : kind = .globalStatement ∨ kind = .nonlocalStatement) :
    (declaredNames kind start).Yields IsStatement := by
  unfold declaredNames
  refine (Yields.items identifier_yields _).bind fun r hnames => ?_
  refine .ite (fun _ => .seq fun _ => .pure ?_) fun _ => .pure ?_
  all_goals
    obtain rfl | rfl := hk <;>
      exact isStatement_values rfl (fun n hn => (hnames n hn).value) fun n hn => (hnames n hn).kind

theorem returnStatement_yields (hr : rules.Sound) (start : Location) :
    (returnStatement rules start).Yields IsStatement := by
  refine .seq fun t => .ite (fun _ => hr.list.bind fun n hn => .pure ?_) fun _ => .pure ?_
  · exact isStatement_values rfl (List.forall_mem_singleton.mpr hn) True.intro
  · exact isStatement_values rfl (List.forall_mem_nil _) True.intro

theorem deleteStatement_yields (hr : rules.Sound) (start : Location) :
    (deleteStatement rules start).Yields IsStatement := by
  unfold deleteStatement
  refine (Yields.items hr.bitwise _).bind fun r hall => ?_
  split
  · exact .pure (isStatement_values rfl hall True.intro)
  · refine .pure (isStatement_values rfl (List.forall_mem_singleton.mpr ?_) True.intro)
    exact .branch rfl hall True.intro

theorem raiseStatement_yields (hr : rules.Sound) (start : Location) :
    (raiseStatement rules start).Yields IsStatement := by
  unfold raiseStatement
  refine .seq fun t => .ite (fun _ => hr.test.bind fun raised hraised => .seq fun t => .seq fun _ => ?_) fun _ =>
    .pure (isStatement_values rfl (List.forall_mem_nil _) True.intro)
  extract_lets finish
  have hfinish : ∀ more : List Node, (∀ n ∈ more, n.IsValue) → (finish more).Yields IsStatement := by
    intro more hmore
    have hall : ∀ cause : List Node, (∀ n ∈ cause, n.IsValue) →
        IsStatement (branch .raiseStatement start (raised :: more ++ cause)) := by
      intro cause hcause
      refine isStatement_values rfl ?_ True.intro
      simp only [List.cons_append, List.forall_mem_cons, List.forall_mem_append]
      exact ⟨hraised, hmore, hcause⟩
    refine .seq fun _ => .ite (fun _ => hr.test.bind fun cause hc => .pure ?_) fun _ => .pure ?_
    · exact hall [cause] (List.forall_mem_singleton.mpr hc)
    · exact hall [] (List.forall_mem_nil _)
  refine .ite (fun _ => .seq fun _ => ?_) fun _ => hfinish [] (List.forall_mem_nil _)
  exact (Yields.items hr.test _).bind fun r hmore => hfinish r.1 hmore

theorem assertStatement_yields (hr : rules.Sound) (start : Location) :
    (assertStatement rules start).Yields IsStatement := by
  unfold assertStatement
  refine (Yields.items hr.test _).bind fun r hparts => ?_
  have hv : IsStatement (branch .assertStatement start r.1) := isStatement_values rfl hparts True.intro
  refine .ite (fun _ => .seq fun _ => .ite (fun _ => .seq fun _ => .pure hv) fun _ => .pure hv) fun _ =>
    .ite (fun _ => .seq fun _ => .pure hv) fun _ => .pure hv

theorem typeAlias_yields (hr : rules.Sound) : (typeAlias rules).Yields IsStatement := by
  unfold typeAlias
  refine .seq fun t => identifier_value.bind fun name hname => (typeParameters_yields hr).bind
    fun params hparams => .seq fun _ => (hint_yields hr).bind fun value hv => .pure ?_
  refine isStatement_values rfl (List.forall_mem_cons.mpr ⟨?_, List.forall_mem_singleton.mpr ?_⟩) True.intro
  · refine isValue_as.mpr (.branch rfl (List.forall_mem_singleton.mpr ?_) True.intro)
    split
    · exact hname
    · exact .branch rfl (List.forall_mem_cons.mpr ⟨hname, fun n hn => (hparams n hn).1⟩) True.intro
  · exact isValue_as.mpr hv.value

theorem simpleStatement_yields (hr : rules.Sound) (first : Bool) :
    (simpleStatement rules first).Yields IsStatement := by
  have hleaf : ∀ {k : Kind} {place : Location}, k.isStatement = true → Shape k "" [] →
      IsStatement (leaf k place "") :=
    fun hk hs => ⟨sound_leaf hs, hk⟩
  unfold simpleStatement
  refine .seq fun t => ?_
  split
  · exact importStatement_yields
  · exact importFrom_yields
  · exact .seq fun _ => .pure (hleaf rfl True.intro)
  · exact .seq fun _ => .pure (hleaf rfl True.intro)
  · exact .seq fun _ => .pure (hleaf rfl True.intro)
  · exact .seq fun _ => returnStatement_yields hr _
  · exact .seq fun _ => deleteStatement_yields hr _
  · exact .seq fun _ => raiseStatement_yields hr _
  · exact .seq fun _ => assertStatement_yields hr _
  · exact .seq fun _ => declaredNames_yields _ (.inl rfl)
  · exact .seq fun _ => declaredNames_yields _ (.inr rfl)
  · refine .ite (fun _ => .seq fun _ => .ite (fun _ => ?_) fun _ => ?_) fun _ => ?_
    · exact typeAlias_yields hr
    · exact nameStatement_yields hr
    · exact expressionStatement_yields hr

theorem simpleLine_yields (hr : rules.Sound) (first : Bool) :
    (simpleLine rules first).Yields fun ns => ∀ n ∈ ns, IsStatement n := by
  unfold simpleLine
  refine (simpleStatement_yields hr first).bind fun head hhead => (Yields.many (Q := IsStatement) ?_).bind
    fun more hmore => .seq fun _ => .pure (List.forall_mem_cons.mpr ⟨hhead, hmore⟩)
  refine .seq fun t => .ite (fun _ => .seq fun _ => .seq fun t => .ite (fun _ => .pure nofun) fun _ => ?_)
    fun _ => .pure nofun
  refine (simpleStatement_yields hr false).bind fun n hn => .pure fun m hm => ?_
  cases hm
  exact hn

/-! ### Blocks -/

theorem fits_statement (hk : k.holdsStatements = true) (h : IsStatement n) : k.fits n.role n.kind = true := by
  have hs := h.statement
  revert hs
  cases n.kind <;> simp +decide [Kind.isStatement, Kind.fits, hk]

theorem isBlock_branch (h : ∀ c ∈ children, IsStatement c) : (branch .block place children).IsBlock :=
  ⟨sound_branch (fun c hc => fits_statement rfl (h c hc)) (fun c hc => (h c hc).sound) True.intro, rfl⟩

theorem suite_yields (hr : rules.Sound) (level : Indentation) : (suite rules level).Yields IsBlock := by
  have hempty : ∀ {place : Location}, (branch .block place []).IsBlock :=
    isBlock_branch (List.forall_mem_nil _)
  unfold suite
  refine .seq fun _ => .seq fun t => .ite (fun _ => .seq fun _ => .seq fun t => ?_) fun _ => .seq fun start => ?_
  · split
    · refine .ite (fun _ => .ite (fun _ => .seq fun _ => hr.block _) fun _ => hr.block _) fun _ => ?_
      exact .seq fun _ => .pure hempty
    · exact .seq fun _ => .pure hempty
  · exact (simpleLine_yields hr false).bind fun ns hns => .pure (isBlock_branch hns)

/-! ### Compound statements -/

/-- A clause that may be left out, and what is read if it is there. -/
theorem clause_yields {β : Type} {level : Indentation} {word : Keyword} {f : Token → Parse β} {none_ : β}
    {Q : β → Prop} (hf : ∀ t, (f t).Yields Q) (hnone : Q none_) :
    (do
      match ← clause level word with
      | some t => f t
      | none => return none_ : Parse β).Yields Q := by
  refine .seq fun o => ?_
  cases o with
  | none => exact .pure hnone
  | some t => exact hf t

theorem elseClause_yields (hr : rules.Sound) (level : Indentation) :
    (elseClause rules level).Yields fun ns => ∀ n ∈ ns, IsClause n := by
  refine clause_yields (fun t => ?_) (List.forall_mem_nil _)
  refine (suite_yields hr level).bind fun body hb => .pure (List.forall_mem_singleton.mpr ?_)
  have helse : IsClause (branch .elseClause t.place [body.as .body]) :=
    isClause_branch rfl (List.forall_mem_singleton.mpr (.of_block hb)) True.intro
  exact helse.as

theorem ifStatement_yields (hr : rules.Sound) (level : Indentation) :
    (ifStatement rules level).Yields IsStatement := by
  unfold ifStatement
  refine .seq fun t => hr.named.bind fun condition hc => (suite_yields hr level).bind fun body hb => ?_
  refine (Yields.many (Q := IsClause) ?_).bind fun elifs helifs => (elseClause_yields hr level).bind
    fun final hfinal => .pure (isStatement_branch rfl ?_ True.intro)
  · refine clause_yields (fun t => ?_) nofun
    refine hr.named.bind fun condition hc => (suite_yields hr level).bind fun body hb => .pure fun n hn => ?_
    cases hn
    have helif : IsClause (branch .elifClause t.place [condition.as .condition, body.as .body]) := by
      refine isClause_branch rfl (List.forall_mem_cons.mpr ⟨.of_valueAs hc, ?_⟩) True.intro
      exact List.forall_mem_singleton.mpr (.of_block hb)
    exact helif.as
  · simp only [List.cons_append, List.forall_mem_cons, List.forall_mem_append]
    exact ⟨.inl (.of_valueAs hc), .inl (.of_block hb), fun n hn => .inr (helifs n hn),
      fun n hn => .inr (hfinal n hn)⟩

theorem whileStatement_yields (hr : rules.Sound) (level : Indentation) :
    (whileStatement rules level).Yields IsStatement := by
  refine .seq fun t => hr.named.bind fun condition hc => (suite_yields hr level).bind fun body hb =>
    (elseClause_yields hr level).bind fun final hfinal => .pure (isStatement_branch rfl ?_ True.intro)
  simp only [List.forall_mem_cons]
  exact ⟨.inl (.of_valueAs hc), .inl (.of_block hb), fun n hn => .inr (hfinal n hn)⟩

theorem asyncMarks_value {mark : Option Token} : ∀ n ∈ asyncMarks mark, n.IsValue := by
  unfold asyncMarks
  split
  · exact List.forall_mem_singleton.mpr (.leaf rfl True.intro)
  · exact List.forall_mem_nil _

theorem forStatement_yields (hr : rules.Sound) (level : Indentation) (mark : Option Token) :
    (forStatement rules level mark).Yields IsStatement := by
  unfold forStatement
  refine .seq fun t => .seq fun start => ?_
  refine (Yields.items (loopTarget_yields hr) _).bind fun r ht => .seq fun _ => hr.list.bind fun iterated hi =>
    (suite_yields hr level).bind fun body hb => (elseClause_yields hr level).bind fun final hfinal =>
      .pure ⟨?_, rfl⟩
  refine sound_binder rfl asyncMarks_value ?_ ?_ fun _ => True.intro
  · split
    · exact ht _ List.mem_cons_self
    · exact .pattern rfl ht True.intro
  · have hbody : IsPart (body.as .body) := .of_block hb
    simp only [List.forall_mem_cons]
    refine ⟨⟨sound_as.mpr hi.sound, (isValue_as.mpr hi).fits⟩, ⟨hbody.sound, hbody.fits _ (.inl rfl)⟩, ?_⟩
    exact fun n hn => ⟨(hfinal n hn).sound, fits_clause rfl (hfinal n hn)⟩

theorem exceptName_yields (hr : rules.Sound) : (exceptName rules).Yields fun ns => ∀ n ∈ ns, n.IsValue := by
  unfold exceptName
  refine .seq fun t => .seq fun _ => .ite (fun _ => ?_) fun _ => .seq fun _ => .ite (fun _ => .seq fun _ => ?_)
    fun _ => .pure (List.forall_mem_nil _)
  · refine identifier_value.bind fun newName hnew => .pure (List.forall_mem_singleton.mpr ?_)
    exact .branch rfl (List.forall_mem_singleton.mpr hnew) True.intro
  · exact hr.test.bind fun n hn => .pure (List.forall_mem_singleton.mpr hn)

theorem exceptHead_yields (hr : rules.Sound) : (exceptHead rules).Yields fun ns => ∀ n ∈ ns, n.IsValue := by
  unfold exceptHead
  refine hr.test.bind fun caught hc => (exceptName_yields hr).bind fun names hnames => ?_
  split
  · exact .pure (List.forall_mem_singleton.mpr (isValue_as.mpr hc))
  · refine .pure (List.forall_mem_singleton.mpr (isValue_as.mpr (.branch rfl ?_ True.intro)))
    exact List.forall_mem_cons.mpr ⟨isValue_as.mpr hc, hnames⟩

theorem exceptClause?_yields (hr : rules.Sound) (level : Indentation) :
    (exceptClause? rules level).Yields fun o => ∀ n ∈ o, IsClause n := by
  unfold exceptClause?
  refine .seq fun o => ?_
  cases o with
  | none => exact .pure nofun
  | some t =>
    refine .seq fun group => .seq fun colon => ?_
    have hfinish : ∀ head : List Node, (∀ n ∈ head, n.IsValue) →
        (do
          let body ← suite rules level
          let kind := if group then Kind.exceptGroupClause else .exceptClause
          return some (branch kind t.place (head ++ [body.as .body])) : Parse (Option Node)).Yields
            fun o => ∀ n ∈ o, IsClause n := by
      intro head hhead
      refine (suite_yields hr level).bind fun body hb => .pure fun n hn => ?_
      cases hn
      refine isClause_branch (by split <;> rfl) ?_ (by split <;> exact True.intro)
      rw [List.forall_mem_append]
      exact ⟨fun n hn => .of_value (hhead n hn), List.forall_mem_singleton.mpr (.of_block hb)⟩
    exact .ite (fun _ => hfinish [] (List.forall_mem_nil _)) fun _ => (exceptHead_yields hr).bind hfinish

theorem finallyClause_yields (hr : rules.Sound) (level : Indentation) :
    (finallyClause rules level).Yields fun ns => ∀ n ∈ ns, IsClause n := by
  refine clause_yields (fun t => ?_) (List.forall_mem_nil _)
  refine (suite_yields hr level).bind fun body hb => .pure (List.forall_mem_singleton.mpr ?_)
  exact isClause_branch rfl (List.forall_mem_singleton.mpr (.of_block hb)) True.intro

theorem tryStatement_yields (hr : rules.Sound) (level : Indentation) :
    (tryStatement rules level).Yields IsStatement := by
  unfold tryStatement
  refine .seq fun t => (suite_yields hr level).bind fun body hb => (Yields.many (exceptClause?_yields hr level)).bind
    fun handlers hhandlers => ?_
  have hfinish : ∀ others : List Node, (∀ n ∈ others, IsClause n) →
      (do
        let final ← finallyClause rules level
        if handlers.isEmpty && final.isEmpty then Parse.fail
        return branch .tryStatement t.place (body.as .body :: handlers ++ others ++ final) :
          Parse Node).Yields IsStatement := by
    intro others hothers
    refine (finallyClause_yields hr level).bind fun final hfinal => ?_
    have hv : IsStatement (branch .tryStatement t.place (body.as .body :: handlers ++ others ++ final)) := by
      refine isStatement_branch rfl ?_ True.intro
      simp only [List.cons_append, List.forall_mem_cons, List.forall_mem_append]
      exact ⟨.inl (.of_block hb), ⟨fun n hn => .inr (hhandlers n hn), fun n hn => .inr (hothers n hn)⟩,
        fun n hn => .inr (hfinal n hn)⟩
    exact .ite (fun _ => .seq fun _ => .pure hv) fun _ => .pure hv
  exact .ite (fun _ => hfinish [] (List.forall_mem_nil _)) fun _ => (elseClause_yields hr level).bind hfinish

theorem withItem_yields (hr : rules.Sound) : (withItem rules).Yields IsClause := by
  unfold withItem
  refine hr.test.bind fun context hc => .seq fun _ => .ite (fun _ => hr.bitwise.bind fun target ht => .pure ?_)
    fun _ => .pure ?_
  · have hbound : (branch .asPatternTarget target.place [target]).IsValue :=
      .branch rfl (List.forall_mem_singleton.mpr ht) True.intro
    refine isClause_branch rfl (List.forall_mem_singleton.mpr (.of_value (.branch rfl ?_ True.intro))) True.intro
    exact List.forall_mem_cons.mpr ⟨isValue_as.mpr hc, List.forall_mem_singleton.mpr hbound⟩
  · exact isClause_branch rfl (List.forall_mem_singleton.mpr (.of_value hc)) True.intro

theorem withItems_yields (hr : rules.Sound) : (withItems rules).Yields fun ns => ∀ n ∈ ns, IsClause n := by
  unfold withItems
  extract_lets plain enclosed
  have hplain : plain.Yields fun ns => ∀ n ∈ ns, IsClause n := by
    refine (Yields.items (withItem_yields hr) _).bind fun r hall => .seq fun t => ?_
    exact .ite (fun _ => .pure hall) fun _ => .fail
  have henclosed : enclosed.Yields fun ns => ∀ n ∈ ns, IsClause n :=
    .seq fun _ => (Yields.items (withItem_yields hr) _).bind fun r hall => .seq fun _ => .pure hall
  exact .seq fun t => .ite (fun _ => .orElse hplain henclosed) fun _ => hplain

theorem withStatement_yields (hr : rules.Sound) (level : Indentation) (mark : Option Token) :
    (withStatement rules level mark).Yields IsStatement := by
  refine .seq fun t => (withItems_yields hr).bind fun contexts hcontexts => (suite_yields hr level).bind
    fun body hb => .pure (isStatement_branch rfl ?_ True.intro)
  simp only [List.forall_mem_append]
  exact ⟨⟨fun n hn => .inl (.of_value (asyncMarks_value n hn)), fun n hn => .inr (hcontexts n hn)⟩,
    List.forall_mem_singleton.mpr (.inl (.of_block hb))⟩

/-! ### Definitions -/

/-- A sound node that may stand in a definition beside its parameters. -/
structure IsDefinitionPart (n : Node) : Prop where
  part : IsPart n
  role : n.role ≠ .parameters
  header : n.role ≠ .body → n.kind.isInline = true

theorem IsDefinitionPart.of_value (h : n.IsValue) (hr : n.role ≠ .parameters) : IsDefinitionPart n :=
  ⟨.of_value h, hr, fun _ => h.isInline⟩

theorem IsDefinitionPart.of_valueAs {r : Role} (h : n.IsValue) (hr : r ≠ .parameters) :
    IsDefinitionPart (n.as r) :=
  .of_value (isValue_as.mpr h) (by rwa [role_as])

theorem IsDefinitionPart.of_block (h : n.IsBlock) : IsDefinitionPart (n.as .body) :=
  ⟨.of_block h, by rw [role_as]; decide, fun hr => absurd role_as hr⟩

theorem asyncMarks_part {mark : Option Token} : ∀ n ∈ asyncMarks mark, IsDefinitionPart n := by
  unfold asyncMarks
  split
  · exact List.forall_mem_singleton.mpr (.of_value (.leaf rfl True.intro) (by rw [role_leaf]; decide))
  · exact List.forall_mem_nil _

theorem typeParameters_part {types : List Node} (h : ∀ n ∈ types, n.IsValue ∧ n.role = .part) :
    ∀ n ∈ types, IsDefinitionPart n :=
  fun n hn => .of_value (h n hn).1 (by rw [(h n hn).2]; decide)

/-- A function made of parts and one list of parameters. -/
theorem isStatement_function {before behind parameters : List Node} {start : Location}
    (hbefore : ∀ n ∈ before, IsDefinitionPart n) (hparameters : ∀ n ∈ parameters, IsParameter n)
    (hbehind : ∀ n ∈ behind, IsDefinitionPart n) :
    IsStatement (branch .functionDefinition place
      (before ++ (branch .parameters start parameters).as .parameters :: behind)) := by
  have hlist : (branch .parameters start parameters).Sound := sound_parameterList rfl hparameters
  have hpart : ∀ {n : Node}, IsDefinitionPart n →
      (n.role = .parameters → n.kind = .parameters) ∧ (n.role ≠ .body → n.kind.isInline = true) :=
    fun h => ⟨fun hr => absurd hr h.role, h.header⟩
  refine ⟨sound_branch ?_ ?_ ?_, rfl⟩
  · rw [List.forall_mem_append, List.forall_mem_cons]
    exact ⟨fun n hn => (hbefore n hn).part.fits _ (.inl rfl), rfl,
      fun n hn => (hbehind n hn).part.fits _ (.inl rfl)⟩
  · rw [List.forall_mem_append, List.forall_mem_cons]
    exact ⟨fun n hn => (hbefore n hn).part.sound, sound_as.mpr hlist, fun n hn => (hbehind n hn).part.sound⟩
  · rw [Shape, List.forall_mem_append, List.forall_mem_cons]
    exact ⟨fun n hn => hpart (hbefore n hn), ⟨fun _ => rfl, fun _ => rfl⟩, fun n hn => hpart (hbehind n hn)⟩

theorem functionDefinition_yields (hr : rules.Sound) (level : Indentation) (mark : Option Token) :
    (functionDefinition rules level mark).Yields IsStatement := by
  unfold functionDefinition
  refine .seq fun t => identifier_value.bind fun name hname => (typeParameters_yields hr).bind
    fun types htypes => .seq fun start => (parameters_yields hr _ _).bind fun params hparams => .seq fun _ =>
      .seq fun _ => ?_
  have hfinish : ∀ result : List Node, (∀ n ∈ result, IsDefinitionPart n) →
      (do
        let body ← suite rules level
        return branch .functionDefinition (startOf mark t)
          (asyncMarks mark ++ name.as .name :: types
            ++ (branch .parameters start.place params).as .parameters :: result ++ [body.as .body]) :
              Parse Node).Yields IsStatement := by
    intro result hresult
    refine (suite_yields hr level).bind fun body hb => .pure ?_
    -- the parameters stand between the name and the result
    rw [List.append_assoc _ (_ :: result), List.cons_append]
    refine isStatement_function ?_ hparams ?_
    · rw [List.forall_mem_append, List.forall_mem_cons]
      exact ⟨asyncMarks_part, .of_valueAs hname (by decide), typeParameters_part htypes⟩
    · rw [List.forall_mem_append]
      exact ⟨hresult, List.forall_mem_singleton.mpr (.of_block hb)⟩
  refine .ite (fun _ => (hint_yields hr).bind fun n hn => hfinish _ ?_) fun _ =>
    hfinish [] (List.forall_mem_nil _)
  exact List.forall_mem_singleton.mpr (.of_valueAs hn.value (by decide))

theorem classDefinition_yields (hr : rules.Sound) (level : Indentation) :
    (classDefinition rules level).Yields IsStatement := by
  unfold classDefinition
  refine .seq fun t => identifier_value.bind fun name hname => (typeParameters_yields hr).bind
    fun types htypes => .seq fun start => .seq fun _ => ?_
  have hfinish : ∀ bases : List Node, (∀ n ∈ bases, IsDefinitionPart n) →
      (do
        let body ← suite rules level
        return branch .classDefinition t.place (name.as .name :: types ++ bases ++ [body.as .body]) :
          Parse Node).Yields IsStatement := by
    intro bases hbases
    refine (suite_yields hr level).bind fun body hb => .pure ?_
    have hall : ∀ n ∈ name.as .name :: types ++ bases ++ [body.as .body], IsDefinitionPart n := by
      rw [List.forall_mem_append, List.forall_mem_append, List.forall_mem_cons]
      exact ⟨⟨⟨.of_valueAs hname (by decide), typeParameters_part htypes⟩, hbases⟩,
        List.forall_mem_singleton.mpr (.of_block hb)⟩
    exact isStatement_branch rfl (fun n hn => .inl (hall n hn).part) fun n hn => (hall n hn).header
  refine .ite (fun _ => (arguments_yields hr _).bind fun args ha => ?_) fun _ =>
    hfinish [] (List.forall_mem_nil _)
  have hbases : ∀ n ∈ [args.as .superclasses], IsDefinitionPart n :=
    List.forall_mem_singleton.mpr (.of_valueAs ha (by decide))
  exact .ite (fun _ => .seq fun _ => hfinish _ hbases) fun _ => hfinish _ hbases

theorem asyncStatement_yields (hr : rules.Sound) (level : Indentation) :
    (asyncStatement rules level).Yields IsStatement := by
  refine .seq fun mark => .seq fun t => ?_
  split
  · exact functionDefinition_yields hr level _
  · exact forStatement_yields hr level _
  · exact withStatement_yields hr level _
  · exact .fail

theorem decorator?_yields (hr : rules.Sound) (level : Indentation) :
    (decorator? rules level).Yields fun o => ∀ n ∈ o, IsClause n := by
  unfold decorator?
  refine .seq fun t => .seq fun _ => .ite (fun _ => hr.named.bind fun e he => .seq fun _ => .seq fun l => ?_)
    fun _ => .pure nofun
  split
  · refine .seq fun _ => .seq fun _ => .pure fun n hn => ?_
    cases hn
    exact isClause_branch rfl (List.forall_mem_singleton.mpr (.of_value he)) True.intro
  · exact .fail

theorem decoratedDefinition_yields (hr : rules.Sound) (level : Indentation) :
    (decoratedDefinition rules level).Yields IsStatement := by
  unfold decoratedDefinition
  refine .seq fun start => (Yields.many (decorator?_yields hr level)).bind fun decorators hdecorators =>
    .seq fun t => ?_
  extract_lets finish
  have hfinish : ∀ definition, IsStatement definition → (finish definition).Yields IsStatement := by
    refine fun definition hd => .pure ⟨sound_branch ?_ ?_ True.intro, rfl⟩
    · rw [List.forall_mem_append]
      exact ⟨fun n hn => fits_clause rfl (hdecorators n hn), List.forall_mem_singleton.mpr (fits_statement rfl hd)⟩
    · rw [List.forall_mem_append]
      exact ⟨fun n hn => (hdecorators n hn).sound, List.forall_mem_singleton.mpr hd.sound⟩
  split
  · exact (functionDefinition_yields hr level _).bind hfinish
  · exact (classDefinition_yields hr level).bind hfinish
  · exact .seq fun mark => (functionDefinition_yields hr level _).bind hfinish
  · exact Yields.fail.bind hfinish

/-! ### Lines -/

theorem statements_yields (hr : rules.Sound) (level : Indentation) :
    (statements rules level).Yields fun ns => ∀ n ∈ ns, IsStatement n := by
  have hone : ∀ {p : Parse Node}, p.Yields IsStatement →
      (do return [← p] : Parse (List Node)).Yields fun ns => ∀ n ∈ ns, IsStatement n :=
    fun h => h.bind fun n hn => .pure (List.forall_mem_singleton.mpr hn)
  unfold statements
  refine .seq fun t => ?_
  split
  · exact hone (ifStatement_yields hr level)
  · exact hone (whileStatement_yields hr level)
  · exact hone (forStatement_yields hr level _)
  · exact hone (tryStatement_yields hr level)
  · exact hone (withStatement_yields hr level _)
  · exact hone (functionDefinition_yields hr level _)
  · exact hone (classDefinition_yields hr level)
  · exact hone (asyncStatement_yields hr level)
  · refine .ite (fun _ => hone (decoratedDefinition_yields hr level)) fun _ => .seq fun c => ?_
    refine .ite (fun _ => .seq fun _ => .seq fun _ => .pure (List.forall_mem_nil _)) fun _ => ?_
    exact simpleLine_yields hr true

theorem line?_yields (hr : rules.Sound) (level : Indentation) :
    (line? rules level).Yields fun o => ∀ ns ∈ o, ∀ n ∈ ns, IsStatement n := by
  unfold line?
  refine .seq fun t => ?_
  split
  · refine .ite (fun _ => .ite (fun _ => .seq fun _ => .pure nofun) fun _ => .pure nofun) fun _ =>
      .seq fun _ => .seq fun _ => .seq fun t => .ite (fun _ => .seq fun _ => .pure fun ns hns => ?_) fun _ => ?_
    · cases hns
      exact List.forall_mem_nil _
    · refine (statements_yields hr level).bind fun ns hns => .pure fun m hm => ?_
      cases hm
      exact hns
  · exact .pure nofun

theorem block_yields (hr : rules.Sound) (level : Indentation) : (block rules level).Yields IsBlock := by
  refine .seq fun start => (Yields.many (line?_yields hr level)).bind fun lines hlines => .pure ?_
  refine isBlock_branch fun n hn => ?_
  obtain ⟨line, hline, hn⟩ := List.mem_flatten.mp hn
  exact hlines line hline n hn

/-! ### All rules together -/

/-- One turn of the grammar keeps what its rules have to give. -/
theorem sound_turn (hr : rules.Sound) : (turn rules).Sound where
  test := test_yields hr
  named := named_yields hr
  disjunction := disjunction_yields hr
  inversion := inversion_yields hr
  bitwise := bitwise_yields hr
  factor := factor_yields hr
  typeHint := typeHint_yields hr
  list := expressionsOf_yields (looseElement_yields hr)
  block := block_yields hr

theorem sound_rulesOfDepth (depth : Nat) : (rulesOfDepth depth).Sound := by
  induction depth with
  | zero => exact ⟨.fail, .fail, .fail, .fail, .fail, .fail, .fail, .fail, fun _ => .fail⟩
  | succ depth ih => exact sound_turn ih

end Grammar

/-! ### Programs -/

theorem sound_of_parse {names : List Char → Bool} {reading : ReturnReading} {text : List Char} {root : Node}
    {offence : Option Offence} (h : parse names reading text = .tree root offence) :
    root.Sound ∧ root.kind = .module := by
  unfold parse at h
  extract_lets tokens whole at h
  have hwhole : whole.Yields fun root => root.Sound ∧ root.kind = .module := by
    refine ((Grammar.sound_rulesOfDepth _).block _).bind fun body hb => .seq fun t => ?_
    split
    · refine .pure ⟨sound_branch (fun c hc => ?_) (fun c hc => hb.sound.child hc) True.intro, rfl⟩
      have hf := hb.sound.formed.fits c hc
      rw [hb.kind] at hf
      rw [Kind.fits_module, hf]
    · exact .fail
  split at h
  · cases h
    exact hwhole _ _ _ ‹_›
  · cases h

/-- The tree of a program is a sound module. -/
theorem sound_of_read {text : List Char} {root : Node} (h : Program.read text = .ok root) :
    root.Sound ∧ root.kind = .module := by
  obtain ⟨ht, hflaws, -⟩ := Readers.read_eq_ok_iff.mp h
  cases Option.some.inj ht
  obtain ⟨offence, hp⟩ := Program.exists_parse_of_unflawed hflaws
  exact sound_of_parse hp

theorem Program.read_eq_ok {text : List Char} {root : Node} (h : (Program.read text).toOption = some root) :
    Program.read text = .ok root := by
  cases hr : Program.read text with
  | error r =>
    rw [hr] at h
    cases h
  | ok n =>
    rw [hr] at h
    cases h
    rfl

end Vetting.Python
