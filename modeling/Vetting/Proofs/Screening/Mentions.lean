import Vetting.Proofs.Screening.Resolution
import Vetting.Screening.Locality

/-!
# What the search through a function finds

The search goes from the parameters and the body of a function down to where a body within begins (`Edge`), and each
node that it comes by tells how it treats a name (`mem_mentions`). By the forms of sound trees, it finds the
declarations of the function as they are (`declared_iff`), and what it takes for a binding is one, but for one thing:
it counts the loop variables of comprehensions as well, as far as they are written bare or behind a star
(`binds_or_leaks`).
-/

namespace Vetting.Screening

open Python Node

variable {name : String} {function top parent n c : Node} {x : Mention}

/-! ### The search through a function -/

/-- From a node to one right below, as the search through a part of a function goes. -/
inductive Edge (function top : Node) : Node → Node → Prop
  | start : Edge function top function top
  | step {parent n c : Node} (h : Edge function top parent n) (hk : n.kind.hasOwnBody = false)
    (hi : n.kind ≠ .identifier) (hc : c ∈ n.children) : Edge function top n c

/-- How a node itself treats a name. -/
def mentionAt (name : String) (parent n : Node) : List Mention :=
  match n.kind with
  | .identifier =>
    if n.text ≠ name then []
    else match parent.kind with
      | .globalStatement => [.declaredGlobal]
      | .nonlocalStatement => [.declaredNonlocal]
      | .keywordArgument => []
      | _ => if isBindingSite parent n then [.bound] else []
  | .functionDefinition => if n.children.any fun n => n.role = .name && n.text = name then [.bound] else []
  | .classDefinition => if n.children.any fun n => n.role = .name && n.text = name then [.bound] else []
  | _ => []

theorem mem_mentionsBelow {ns : List Node} :
    x ∈ mentionsBelow name parent ns ↔ ∃ n ∈ ns, x ∈ mentionsIn name parent n := by
  induction ns with
  | nil => simp [mentionsBelow]
  | cons n rest ih => simp [mentionsBelow, ih]

theorem mem_mentionsIn :
    x ∈ mentionsIn name parent n ↔ x ∈ mentionAt name parent n ∨
      (n.kind.hasOwnBody = false ∧ n.kind ≠ .identifier) ∧ ∃ c ∈ n.children, x ∈ mentionsIn name n c := by
  cases n with
  | mk k r p t cs =>
    rw [← mem_mentionsBelow]
    cases k
    case identifier => exact (or_iff_left fun h => h.1.2 rfl).symm
    all_goals simp [mentionsIn, mentionAt, Kind.hasOwnBody]

/-- What the search finds in a part of a function is found at the end of an edge. -/
theorem mem_mentionsIn_iff :
    x ∈ mentionsIn name function top ↔ ∃ parent n, Edge function top parent n ∧ x ∈ mentionAt name parent n := by
  constructor
  · have hbelow : ∀ n parent, Edge function top parent n → x ∈ mentionsIn name parent n →
        ∃ parent n, Edge function top parent n ∧ x ∈ mentionAt name parent n := by
      intro n
      induction n using childInduction with
      | step n ih =>
        intro parent he hx
        obtain hx | ⟨⟨hk, hi⟩, c, hc, hx⟩ := mem_mentionsIn.mp hx
        · exact ⟨parent, n, he, hx⟩
        · exact ih c hc n (he.step hk hi hc) hx
    exact hbelow top function .start
  · rintro ⟨parent, n, he, hx⟩
    replace hx : x ∈ mentionsIn name parent n := mem_mentionsIn.mpr (.inl hx)
    induction he with
    | start => exact hx
    | step _ hk hi hc ih => exact ih (mem_mentionsIn.mpr (.inr ⟨⟨hk, hi⟩, _, hc, hx⟩))

theorem mem_mentions :
    x ∈ mentions name function ↔ ∃ top ∈ function.children, (top.role = .parameters ∨ top.role = .body) ∧
      ∃ parent n, Edge function top parent n ∧ x ∈ mentionAt name parent n := by
  simp only [mentions, childrenAs, List.mem_flatMap, List.mem_append, List.mem_filter, decide_eq_true_eq,
    mem_mentionsIn_iff, ← and_or_left, and_assoc]

/-! ### Where the search goes -/

theorem isFunction_iff : isFunction n = true ↔ n.kind = .functionDefinition ∨ n.kind = .lambda := by
  simp [isFunction]

theorem hasOwnBody_of_isFunction (h : isFunction n = true) : n.kind.hasOwnBody = true := by
  obtain h | h := isFunction_iff.mp h <;> rw [h] <;> rfl

theorem Edge.sound (hf : function.Sound) (htop : top ∈ function.children) (h : Edge function top parent n) :
    n.Sound := by
  induction h with
  | start => exact hf.child htop
  | step _ _ _ hc ih => exact ih.child hc

theorem Edge.sound_parent (hf : function.Sound) (htop : top ∈ function.children) (h : Edge function top parent n) :
    parent.Sound := by
  cases h with
  | start => exact hf
  | step h => exact h.sound hf htop

theorem Edge.mem (htop : top ∈ function.children) (h : Edge function top parent n) : n ∈ parent.children := by
  cases h with
  | start => exact htop
  | step _ _ _ hc => exact hc

theorem Edge.fits (hf : function.Sound) (htop : top ∈ function.children) (h : Edge function top parent n) :
    parent.kind.fits n.role n.kind = true :=
  (h.sound_parent hf htop).formed.fits n (h.mem htop)

/-- An edge below a node that has no body of its own comes from an edge to this node. -/
theorem Edge.outer (h : Edge function top parent n) (hp : parent ≠ function) :
    ∃ outer, Edge function top outer parent := by
  cases h with
  | start => exact absurd rfl hp
  | step h => exact ⟨_, h⟩

/-- The search enters no body within. -/
theorem Edge.eq_start (h : Edge function top parent n) (hp : parent.kind.hasOwnBody = true) :
    parent = function ∧ n = top := by
  cases h with
  | start => exact ⟨rfl, rfl⟩
  | step _ hk =>
    rw [hk] at hp
    cases hp

theorem Edge.runs (htop : top ∈ function.children) (hr : top.role = .body) (h : Edge function top parent n) :
    Runs function n := by
  induction h with
  | start => exact .body htop hr
  | step _ hk _ hc ih => exact ih.child hc fun h => absurd h (by rw [hk]; decide)

theorem Edge.isInline (hf : function.Sound) (htop : top ∈ function.children) (hi : top.kind.isInline = true)
    (h : Edge function top parent n) : n.kind.isInline = true := by
  induction h with
  | start => exact hi
  | step h _ _ hc ih => exact Kind.isInline_of_fits ih ((h.sound hf htop).formed.fits _ hc)

theorem isParameterList_of_role (hf : function.Sound) (hk : isFunction function = true) (hc : c ∈ function.children)
    (hr : c.role = .parameters) : c.kind.isParameterList = true := by
  have hshape := hf.formed.shape
  obtain hk | hk := isFunction_iff.mp hk
  · rw [hk] at hshape
    rw [(hshape c hc).1 hr]
    rfl
  · rw [hk] at hshape
    rw [hshape c hc hr]
    rfl

/-- What the search comes by is inline, or runs with the body of the function. -/
theorem Edge.isInline_or_runs (hf : function.Sound) (hk : isFunction function = true) (htop : top ∈ function.children)
    (hr : top.role = .parameters ∨ top.role = .body) (h : Edge function top parent n) :
    n.kind.isInline = true ∨ Runs function n := by
  obtain hr | hr := hr
  · exact .inl (h.isInline hf htop (Kind.isInline_of_isParameterList (isParameterList_of_role hf hk htop hr)))
  · exact .inr (h.runs htop hr)

theorem sound_of_runs (hf : function.Sound) (h : Runs function n) : n.Sound := by
  induction h with
  | body hn => exact hf.child hn
  | child _ hn _ ih => exact ih.child hn

/-- What stands beside a body is inline. -/
theorem isInline_of_header (hp : parent.Sound) (hk : parent.kind.hasOwnBody = true) (hc : c ∈ parent.children)
    (hr : c.role ≠ .body) : c.kind.isInline = true := by
  have hshape := hp.formed.shape
  cases hkind : parent.kind <;> rw [hkind] at hk hshape
  case functionDefinition => exact (hshape c hc).2 hr
  case classDefinition => exact hshape c hc hr
  case lambda =>
    have hfits := hp.formed.fits c hc
    rw [hkind] at hfits
    exact Kind.isInline_of_fits rfl hfits
  all_goals cases hk

/-- The search through the body of a function comes by every statement that runs with it. -/
theorem exists_edge_of_runs (hf : function.Sound) (h : Runs function n) (hn : n.kind.isInline = false) :
    ∃ top ∈ function.children, top.role = .body ∧ ∃ parent, Edge function top parent n := by
  induction h with
  | body hc hr => exact ⟨_, hc, hr, _, .start⟩
  | @child parent n h hc hr ih =>
    have hp := sound_of_runs hf h
    by_cases hk : parent.kind.hasOwnBody = true
    · rw [isInline_of_header hp hk hc (hr hk)] at hn
      cases hn
    · cases hi : parent.kind.isInline with
      | true =>
        rw [Kind.isInline_of_fits hi (hp.formed.fits _ hc)] at hn
        cases hn
      | false =>
        obtain ⟨top, htop, hr, outer, he⟩ := ih hi
        have hid : parent.kind ≠ .identifier := by
          intro hid
          rw [hid] at hi
          cases hi
        exact ⟨top, htop, hr, parent, he.step (Bool.eq_false_iff.mpr hk) hid hc⟩

/-! ### Declarations -/

/-- The mention that a declaring statement makes of its names. -/
inductive DeclaredBy : Kind → Mention → Prop
  | global : DeclaredBy .globalStatement .declaredGlobal
  | nonlocal : DeclaredBy .nonlocalStatement .declaredNonlocal

theorem DeclaredBy.ne_bound {k : Kind} (h : DeclaredBy k x) : x ≠ .bound := by
  cases h <;> decide

/-- How a name is treated right at itself. -/
theorem mem_mentionAt_identifier (hn : n.kind = .identifier) : x ∈ mentionAt name parent n ↔
    n.text = name ∧ (DeclaredBy parent.kind x ∨ x = .bound ∧ parent.kind ≠ .globalStatement ∧
      parent.kind ≠ .nonlocalStatement ∧ parent.kind ≠ .keywordArgument ∧ isBindingSite parent n = true) := by
  have hd : ∀ k : Kind, k ≠ .globalStatement → k ≠ .nonlocalStatement → ¬ DeclaredBy k x := by
    rintro k hg hn (_ | _)
    · exact hg rfl
    · exact hn rfl
  unfold mentionAt
  rw [hn]
  dsimp only
  by_cases ht : n.text = name
  case neg => simp [ht]
  rw [if_neg fun h => h ht]
  split
  case h_1 hk =>
    rw [hk, List.mem_singleton]
    constructor
    · rintro rfl
      exact ⟨ht, .inl .global⟩
    · rintro ⟨-, h | ⟨-, h, -⟩⟩
      · cases h
        rfl
      · exact absurd rfl h
  case h_2 hk =>
    rw [hk, List.mem_singleton]
    constructor
    · rintro rfl
      exact ⟨ht, .inl .nonlocal⟩
    · rintro ⟨-, h | ⟨-, -, h, -⟩⟩
      · cases h
        rfl
      · exact absurd rfl h
  case h_3 hk =>
    rw [hk]
    simp [hd]
  case h_4 hg hl ha =>
    by_cases hb : isBindingSite parent n = true
    · rw [if_pos hb, List.mem_singleton]
      constructor
      · exact fun hx => ⟨ht, .inr ⟨hx, hg, hl, ha, hb⟩⟩
      · exact fun h => h.2.elim (fun h => absurd h (hd _ hg hl)) And.left
    · rw [if_neg hb]
      constructor
      · exact fun hx => absurd hx List.not_mem_nil
      · exact fun h => h.2.elim (fun h => absurd h (hd _ hg hl)) fun h => absurd h.2.2.2.2 hb

/-- Every other node is treated as what it defines. -/
theorem mem_mentionAt_other (hn : n.kind ≠ .identifier) : x ∈ mentionAt name parent n ↔
    (n.kind = .functionDefinition ∨ n.kind = .classDefinition) ∧ x = .bound ∧
      ∃ c ∈ n.children, c.role = .name ∧ c.text = name := by
  unfold mentionAt
  split
  case h_1 h => exact absurd h hn
  case h_2 h | h_3 h =>
    rw [h]
    split <;> simp_all
  case h_4 =>
    simp_all

theorem DeclaredBy.mem_mentionAt {k : Kind} (h : DeclaredBy k x) : x ∈ mentionAt name parent n ↔
    parent.kind = k ∧ n.kind = .identifier ∧ n.text = name := by
  have hk : DeclaredBy parent.kind x ↔ parent.kind = k := by
    constructor
    · intro hp
      generalize parent.kind = l at hp
      cases h <;> cases hp <;> rfl
    · rintro rfl
      exact h
  by_cases hn : n.kind = .identifier
  · rw [mem_mentionAt_identifier hn, hk]
    simp [hn, h.ne_bound, and_comm]
  · rw [mem_mentionAt_other hn]
    simp [hn, h.ne_bound]

/-- The search finds the declarations of a function. -/
theorem declared_iff {k : Kind} (hf : function.Sound) (hk : isFunction function = true) (hd : DeclaredBy k x) :
    x ∈ mentions name function ↔ function.Declares k name := by
  have hinline : k.isInline = false := by cases hd <;> rfl
  have hbody : k.hasOwnBody = false := by cases hd <;> rfl
  -- a declaration is a statement, so it is neither in the parameters nor beside a body within
  constructor
  · intro hx
    obtain ⟨top, htop, hr, parent, n, he, hx⟩ := mem_mentions.mp hx
    obtain ⟨hp, -, ht⟩ := hd.mem_mentionAt.mp hx
    have hne : parent ≠ function := by
      rintro rfl
      rw [← hp, hasOwnBody_of_isFunction hk] at hbody
      cases hbody
    obtain ⟨outer, ho⟩ := he.outer hne
    obtain hi | hruns := ho.isInline_or_runs hf hk htop hr
    · rw [hp, hinline] at hi
      cases hi
    · exact ⟨parent, hruns, hp, n, he.mem htop, ht⟩
  · rintro ⟨statement, hruns, rfl, c, hc, ht⟩
    obtain ⟨top, htop, hr, parent, he⟩ := exists_edge_of_runs hf hruns hinline
    have hid : statement.kind ≠ .identifier := by
      intro hid
      rw [hid] at hinline
      cases hinline
    have hname : c.kind = .identifier := by
      have hshape := (sound_of_runs hf hruns).formed.shape
      generalize statement.kind = k at hd hshape
      cases hd
      · exact hshape c hc
      · exact hshape c hc
    exact mem_mentions.mpr ⟨top, htop, .inr hr, statement, c, he.step hbody hid hc,
      hd.mem_mentionAt.mpr ⟨rfl, hname, ht⟩⟩

/-! ### Bindings -/

/-- Whether a target has a name behind a star. -/
inductive Starred (name : String) : Node → Prop
  | star {n c : Node} (hk : n.kind = .listSplatPattern) (hc : c ∈ n.children) (hi : c.kind = .identifier)
    (ht : c.text = name) : Starred name n
  | within {n c : Node} (hk : n.kind.isPattern = true) (hc : c ∈ n.children) (h : Starred name c) : Starred name n

/-- The parameters and the body of a function, less the bodies within and their parameters. -/
inductive Reached (function : Node) : Node → Prop
  | start {n : Node} (hn : n ∈ function.children) (hr : n.role = .parameters ∨ n.role = .body) : Reached function n
  | child {parent n : Node} (h : Reached function parent) (hk : parent.kind.hasOwnBody = false)
    (hn : n ∈ parent.children) : Reached function n

/-- Whether a comprehension in a function has a loop over a name that is written bare or behind a star. -/
def Leaks (function : Node) (name : String) : Prop :=
  ∃ clause, Reached function clause ∧ clause.kind = .forClause ∧
    ∃ left ∈ clause.children, left.role = .left ∧
      (left.kind = .identifier ∧ left.text = name ∨ Starred name left)

theorem mem_preorder_of_reached (h : Reached function n) : n ∈ function.preorder := by
  induction h with
  | start hn => exact mem_preorder_of_mem_children mem_preorder_self hn
  | child _ _ hn ih => exact mem_preorder_of_mem_children ih hn

/-- A function without comprehensions leaks no name. -/
theorem not_leaks (h : ∀ n ∈ function.preorder, n.kind ≠ .forClause) : ¬ Leaks function name := by
  rintro ⟨clause, hreached, hk, -⟩
  exact h clause (mem_preorder_of_reached hreached) hk

theorem targets_of_starred (h : Starred name n) : Targets name n := by
  induction h with
  | star hk hc hi ht => exact .part (by rw [hk]; rfl) hc (.name hi ht)
  | @within n c hk hc _ ih =>
    refine .part ?_ hc ih
    revert hk
    cases n.kind <;> decide

theorem Edge.reached (htop : top ∈ function.children) (hr : top.role = .parameters ∨ top.role = .body)
    (h : Edge function top parent n) : Reached function n := by
  induction h with
  | start => exact .start htop hr
  | step _ hk _ hc ih => exact ih.child hk hc

section Search

variable (hf : function.Sound) (hk : isFunction function = true) (htop : top ∈ function.children)
include hf hk htop

/-- An edge below a node that is no function comes from an edge to this node. -/
theorem exists_outer (h : Edge function top parent n) (hp : parent.kind.hasOwnBody = false) :
    ∃ outer, Edge function top outer parent := by
  refine h.outer ?_
  rintro rfl
  rw [hasOwnBody_of_isFunction hk] at hp
  cases hp

/-- A node of a list of parameters is a parameter of the function. -/
theorem hasParameter_of_edge (h : Edge function top parent n) (hp : parent.kind.isParameterList = true)
    (hn : NamesParameter name n) : function.HasParameter name := by
  have hown : parent.kind.hasOwnBody = false := by
    revert hp
    cases parent.kind <;> decide
  obtain ⟨outer, ho⟩ := exists_outer hf hk htop h hown
  obtain ⟨hkind, hr⟩ := Kind.fits_parameterList hp (ho.fits hf htop)
  obtain ⟨rfl, rfl⟩ := ho.eq_start (hasOwnBody_of_isFunction (isFunction_iff.mpr hkind))
  exact ⟨_, htop, hr, n, h.mem htop, hn⟩

/-- So is what stands there with its type. -/
theorem hasParameter_of_typed (h : Edge function top parent n)
    (hp : parent.kind.isParameterList = true ∨ parent.kind = .typedParameter) (hn : NamesParameter name n)
    (ht : n.kind ≠ .type) : function.HasParameter name := by
  obtain hp | hp := hp
  · exact hasParameter_of_edge hf hk htop h hp hn
  · obtain ⟨outer, ho⟩ := exists_outer hf hk htop h (by rw [hp]; rfl)
    have hfits := ho.fits hf htop
    have hshape := (h.sound_parent hf htop).formed.shape
    rw [hp] at hfits hshape
    exact hasParameter_of_edge hf hk htop ho hfits (.typed hp (h.mem htop) (hshape n (h.mem htop) ht) hn)

/-- And what stands there with its value. -/
theorem hasParameter_of_defaulted (h : Edge function top parent n)
    (hp : parent.kind = .defaultParameter ∨ parent.kind = .typedDefaultParameter) (hr : n.role = .name)
    (hn : Targets name n) : function.HasParameter name := by
  obtain ⟨outer, ho⟩ := exists_outer hf hk htop h (by obtain hp | hp := hp <;> rw [hp] <;> rfl)
  have hfits : outer.kind.isParameterList = true := by
    have hfits := ho.fits hf htop
    obtain hp | hp := hp <;> rwa [hp] at hfits
  exact hasParameter_of_edge hf hk htop ho hfits (.defaulted hp (h.mem htop) hr hn)

/-- What is assigned to binds the name, or is the loop of a comprehension. -/
theorem binds_or_leaks_of_target (hr : top.role = .parameters ∨ top.role = .body) (h : Edge function top parent n)
    (hp : parent.kind.takesTarget = true) (hleft : n.role = .left)
    (hn : n.kind = .identifier ∧ n.text = name ∨ Starred name n) : function.Binds name ∨ Leaks function name := by
  have htargets : Targets name n := hn.elim (fun h => .name h.1 h.2) targets_of_starred
  have hown : parent.kind.hasOwnBody = false := by
    revert hp
    cases parent.kind <;> decide
  obtain ⟨outer, ho⟩ := exists_outer hf hk htop h hown
  by_cases hclause : parent.kind = .forClause
  · exact .inr ⟨parent, ho.reached htop hr, hclause, n, h.mem htop, hleft, hn⟩
  have hstatement : parent.kind = .assignment ∨ parent.kind = .augmentedAssignment ∨ parent.kind = .forStatement := by
    revert hp hclause
    cases parent.kind <;> decide
  obtain hi | hruns := ho.isInline_or_runs hf hk htop hr
  · obtain hp | hp | hp := hstatement <;> rw [hp] at hi <;> cases hi
  · exact .inl (.inr ⟨parent, hruns, .assigned hstatement (h.mem htop) hleft htargets⟩)

/-- A name behind a star in a pattern is one of a target or a parameter. -/
theorem binds_or_leaks_of_starred (hr : top.role = .parameters ∨ top.role = .body) (h : Edge function top parent n)
    (hn : n.kind.isPattern = true) (hs : Starred name n) : function.Binds name ∨ Leaks function name := by
  -- the induction climbs from a pattern to the patterns around, up to what holds the outermost
  induction h with
  | start =>
    have hfits := hf.formed.fits top htop
    rw [Kind.fits, if_pos hn] at hfits
    obtain hk | hk := isFunction_iff.mp hk <;> rw [hk] at hfits <;> cases hfits
  | @step parent n c h hown hi hc ih =>
    have hedge : Edge function top n c := h.step hown hi hc
    have hfits := hedge.fits hf htop
    rw [Kind.fits, if_pos hn] at hfits
    simp only [Kind.holdsTargets, Bool.or_eq_true, Bool.and_eq_true, decide_eq_true_eq] at hfits
    have htype : c.kind ≠ .type := by
      intro ht
      rw [ht] at hn
      cases hn
    have hnames : NamesParameter name c := .target (targets_of_starred hs)
    obtain (((hp | ⟨hp, hleft⟩) | hp) | hp) | ⟨hp, hname⟩ := hfits
    · exact ih hp (.within hp hc hs)
    · exact binds_or_leaks_of_target hf hk htop hr hedge hp hleft (.inr hs)
    · exact .inl (.inl (hasParameter_of_typed hf hk htop hedge (.inl hp) hnames htype))
    · exact .inl (.inl (hasParameter_of_typed hf hk htop hedge (.inr hp) hnames htype))
    · exact .inl (.inl (hasParameter_of_defaulted hf hk htop hedge (.inl hp) hname (targets_of_starred hs)))

/-- A name where the search takes it for a binding. -/
theorem binds_or_leaks_of_site (hr : top.role = .parameters ∨ top.role = .body) (h : Edge function top parent n)
    (hn : n.kind = .identifier) (ht : n.text = name) (hg : parent.kind ≠ .globalStatement)
    (hl : parent.kind ≠ .nonlocalStatement) (ha : parent.kind ≠ .keywordArgument)
    (hsite : isBindingSite parent n = true) : function.Binds name ∨ Leaks function name := by
  have htargets : Targets name n := .name hn ht
  have htype : n.kind ≠ .type := by rw [hn]; decide
  -- the names of definitions within are looked at with the definitions, which the search does not enter
  have hbody : parent.kind.hasOwnBody = true → n.role ≠ .name := by
    intro hown hname
    obtain ⟨rfl, rfl⟩ := h.eq_start hown
    rw [hname] at hr
    obtain hr | hr := hr <;> cases hr
  have htarget := fun hp hleft => binds_or_leaks_of_target hf hk htop hr h hp hleft (.inl ⟨hn, ht⟩)
  have hdefault := fun hp hname => hasParameter_of_defaulted hf hk htop h hp hname htargets
  have hlisted := fun hp => hasParameter_of_typed hf hk htop h hp (.target htargets) htype
  unfold isBindingSite at hsite
  split at hsite
  case h_1 hp | h_2 hp => exact absurd (of_decide_eq_true hsite) (hbody (by rw [hp]; rfl))
  case h_3 hp => exact absurd hp ha
  case h_4 hp => exact .inl (.inl (hdefault (.inl hp) (of_decide_eq_true hsite)))
  case h_5 hp => exact .inl (.inl (hdefault (.inr hp) (of_decide_eq_true hsite)))
  case h_6 hp | h_7 hp | h_8 hp =>
    exact htarget (by rw [hp]; rfl) (of_decide_eq_true hsite)
  case h_9 hp | h_10 hp => exact .inl (.inl (hlisted (.inl (by rw [hp]; rfl))))
  case h_11 hp => exact .inl (.inl (hlisted (.inr hp)))
  case h_12 hp =>
    obtain ⟨outer, ho⟩ := exists_outer hf hk htop h (by rw [hp]; rfl)
    exact binds_or_leaks_of_starred hf hk htop hr ho (by rw [hp]; rfl) (.star hp (h.mem htop) hn ht)
  case h_13 hp =>
    obtain ⟨outer, ho⟩ := exists_outer hf hk htop h (by rw [hp]; rfl)
    have hfits := ho.fits hf htop
    rw [hp] at hfits
    have houter : outer.kind.isParameterList = true ∨ outer.kind = .typedParameter := by
      simpa [Kind.fits, Kind.isPattern] using hfits
    exact .inl (.inl (hasParameter_of_typed hf hk htop ho houter (.gathered hp (h.mem htop) htargets)
      (by rw [hp]; decide)))
  case h_14 hp => exact absurd hp hg
  case h_15 hp => exact absurd hp hl
  case h_16 => cases hsite

end Search

/-- What the search takes for a binding binds the name, or is the loop of a comprehension. -/
theorem binds_or_leaks (hf : function.Sound) (hk : isFunction function = true)
    (h : .bound ∈ mentions name function) : function.Binds name ∨ Leaks function name := by
  obtain ⟨top, htop, hr, parent, n, he, hx⟩ := mem_mentions.mp h
  by_cases hn : n.kind = .identifier
  · obtain ⟨ht, hd | ⟨-, hg, hl, ha, hsite⟩⟩ := (mem_mentionAt_identifier hn).mp hx
    · exact absurd rfl hd.ne_bound
    · exact binds_or_leaks_of_site hf hk htop hr he hn ht hg hl ha hsite
  · obtain ⟨hdef, -, c, hc, hname, ht⟩ := (mem_mentionAt_other hn).mp hx
    obtain hi | hruns := he.isInline_or_runs hf hk htop hr
    · obtain hdef | hdef := hdef <;> rw [hdef] at hi <;> cases hi
    · exact .inl (.inr ⟨n, hruns, .defined (hdef.imp_right .inl) hc hname ht⟩)

end Vetting.Screening
