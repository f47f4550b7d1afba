import CilAssembly.Proofs.Generation.Steps

/-!
Scopes over whole histories. Parents are older than the scopes inside them, so looking a name up goes
down to the global scope, and it finds the latest declaration of the nearest scope that has one.
-/
namespace CilAssembly.Scopes

/-- A call that changes scopes. -/
inductive Call
  | create (parent : ScopeId) (kind : ScopeKind)
  | declare (scope : ScopeId) (name : String) (item : Item)
  deriving DecidableEq, Repr, Inhabited

/-- Scopes that calls have built, with the identifiers handed out on the way, newest first. A parent
is the global scope or one that an earlier call has created. -/
inductive Built : List Call → List ScopeId → Scopes → Prop
  | initial : Built [] [global] .initial
  | create {calls handed s id s' parent} (built : Built calls handed s) (known : parent ∈ handed)
      (kind : ScopeKind) (created : s.create parent kind = (id, s')) :
      Built (calls ++ [.create parent kind]) (id :: handed) s'
  | declare {calls handed s s' scope name item old} (built : Built calls handed s)
      (declared : s.declare scope name item = .ok (old, s')) :
      Built (calls ++ [.declare scope name item]) handed s'

/-- The item that a call gives a name in a scope. -/
def Call.item? (id : ScopeId) (name : String) : Call → Option Item
  | .create .. => none
  | .declare scope declared item => if scope = id ∧ declared = name then some item else none

/-- The item of the latest declaration of a name in a scope. -/
def latest (calls : List Call) (id : ScopeId) (name : String) : Option Item :=
  calls.reverse.findSome? (Call.item? id name)

lemma latest_append (calls : List Call) (call : Call) (id : ScopeId) (name : String) :
    latest (calls ++ [call]) id name = (call.item? id name).or (latest calls id name) := by
  rw [latest, List.reverse_concat, ← List.singleton_append, List.findSome?_append]
  simp [latest]

section Views
variable (s : Scopes) (id : ScopeId)

/-- The parent of a scope, for a scope that there is. -/
def outer? : Option (Option ScopeId) :=
  s.scopes[id.index]?.map (·.parent)

/-- What a scope itself makes of a name. -/
def declared (name : String) : Option Item :=
  s.scopes[id.index]?.bind (·.names.lookup name)

lemma isSome_outer? : (s.outer? id).isSome = true ↔ id.index < s.scopes.size := by
  simp [outer?]

end Views

section Calls
variable {s s' : Scopes}

lemma outer?_initial {id : ScopeId} {parent : Option ScopeId}
    (h : Scopes.initial.outer? id = some parent) : id = global ∧ parent = none := by
  obtain ⟨index⟩ := id
  obtain ⟨scope, hscope, rfl⟩ := Option.map_eq_some_iff.mp h
  obtain ⟨hlt, rfl⟩ := Array.getElem?_eq_some_iff.mp hscope
  obtain rfl : index = 0 := by simpa [initial] using hlt
  exact ⟨rfl, rfl⟩

lemma declared_initial (id : ScopeId) (name : String) : Scopes.initial.declared id name = none := by
  refine Option.bind_eq_none_iff.mpr fun scope hscope => ?_
  obtain ⟨hlt, rfl⟩ := Array.getElem?_eq_some_iff.mp hscope
  simp [initial]

lemma outer?_create (parent : ScopeId) (kind : ScopeKind) (id : ScopeId) :
    (s.create parent kind).2.outer? id =
      if id.index = s.scopes.size then some (some parent) else s.outer? id := by
  simp only [outer?, create, Array.getElem?_push]
  split <;> rfl

/-- A new scope declares nothing. -/
lemma declared_create (parent : ScopeId) (kind : ScopeKind) (id : ScopeId) (name : String) :
    (s.create parent kind).2.declared id name = s.declared id name := by
  simp only [declared, create, Array.getElem?_push]
  split
  case isTrue h => simp [h]
  case isFalse => rfl

variable {scope : ScopeId} {name : String} {item : Item} {old : Option Item}
  (h : s.declare scope name item = .ok (old, s'))
include h

lemma declare_eq_ok : scope.index < s.scopes.size ∧
    s' = ⟨s.scopes.modify scope.index fun e => { e with names := (name, item) :: e.names }⟩ := by
  cases hentry : s.get scope with
  | error v => rw [declare, hentry] at h; cases h
  | ok entry =>
    rw [declare, hentry] at h
    cases h
    exact ⟨(Array.getElem?_eq_some_iff.mp (fetch_eq_ok.mp hentry)).1, rfl⟩

/-- A declaration changes no parent. -/
lemma outer?_declare (id : ScopeId) : s'.outer? id = s.outer? id := by
  obtain ⟨-, rfl⟩ := declare_eq_ok h
  simp only [outer?, Array.getElem?_modify]
  split
  · rw [Option.map_map]
    rfl
  · rfl

/-- A declaration changes what its own scope makes of its name. -/
lemma declared_declare (id : ScopeId) (other : String) : s'.declared id other =
    ((Call.declare scope name item).item? id other).or (s.declared id other) := by
  obtain ⟨hlt, rfl⟩ := declare_eq_ok h
  simp only [declared, Array.getElem?_modify, Call.item?]
  by_cases hid : scope = id
  · subst hid
    rw [if_pos rfl, Array.getElem?_eq_getElem hlt]
    by_cases hname : name = other
    · simp [hname]
    · have hne : (other == name) = false := beq_false_of_ne (Ne.symm hname)
      simp [hname, List.lookup_cons, hne]
  · have hindex : scope.index ≠ id.index := by
      intro hindex
      exact hid (congrArg ScopeId.mk hindex)
    simp [hid, hindex]

end Calls

/-- What the calls that built scopes tell about them: which scopes there are, that only the global
one has no parent and all parents are older, and what each scope declares. -/
structure Reflects (s : Scopes) (calls : List Call) (handed : List ScopeId) : Prop where
  handed : ∀ id, id ∈ handed ↔ id.index < s.scopes.size
  root : ∀ {id}, s.outer? id = some none → id = global
  older : ∀ {id parent}, s.outer? id = some (some parent) → parent.index < id.index
  declared : ∀ id name, s.declared id name = latest calls id name

lemma reflects_initial : Scopes.initial.Reflects [] [global] where
  handed id := by
    obtain ⟨index⟩ := id
    simp [initial, global]
  root h := (outer?_initial h).1
  older h := by cases (outer?_initial h).2
  declared := declared_initial

section
variable {s s' : Scopes} {calls : List Call} {handed : List ScopeId}

lemma Reflects.create (h : s.Reflects calls handed) {parent : ScopeId} (hparent : parent ∈ handed)
    (kind : ScopeKind) : (s.create parent kind).2.Reflects (calls ++ [.create parent kind])
      ((s.create parent kind).1 :: handed) where
  handed id := by
    rw [List.mem_cons, h.handed]
    obtain ⟨index⟩ := id
    simp only [Scopes.create, Array.size_push, ScopeId.mk.injEq]
    omega
  root hnone := by
    rw [outer?_create] at hnone
    split at hnone
    · cases hnone
    · exact h.root hnone
  older hsome := by
    rw [outer?_create] at hsome
    split at hsome
    case isTrue hnew =>
      cases hsome
      exact hnew ▸ (h.handed parent).mp hparent
    case isFalse => exact h.older hsome
  declared id name := by
    rw [declared_create, latest_append, h.declared]
    rfl

lemma Reflects.declare (h : s.Reflects calls handed) {scope : ScopeId} {name : String}
    {item : Item} {old : Option Item} (hdeclare : s.declare scope name item = .ok (old, s')) :
    s'.Reflects (calls ++ [.declare scope name item]) handed where
  handed id := by
    obtain ⟨-, rfl⟩ := declare_eq_ok hdeclare
    simpa using h.handed id
  root hnone := h.root (outer?_declare hdeclare _ ▸ hnone)
  older hsome := h.older (outer?_declare hdeclare _ ▸ hsome)
  declared id other := by
    rw [declared_declare hdeclare, latest_append, h.declared]

/-- The calls tell everything about the scopes they built. -/
theorem Built.reflects (h : Built calls handed s) : s.Reflects calls handed := by
  induction h with
  | initial => exact reflects_initial
  | create built known kind created ih =>
    cases created
    exact ih.create known kind
  | declare built declared ih => exact ih.declare declared

end

/-- The scopes from one outwards: each is the parent of the one before it, and the last has none. -/
inductive Chain (s : Scopes) : ScopeId → List ScopeId → Prop
  | outermost {id} (found : s.outer? id = some none) : Chain s id [id]
  | inside {id parent chain} (found : s.outer? id = some (some parent))
      (outer : Chain s parent chain) : Chain s id (id :: chain)

namespace Chain
variable {s s' : Scopes} {id : ScopeId} {chain : List ScopeId}

/-- A chain stays where its scopes keep their parents. -/
lemma congr (h : s.Chain id chain) (houter : ∀ v parent, s.outer? v = some parent →
    s'.outer? v = some parent) : s'.Chain id chain := by
  induction h with
  | outermost found => exact .outermost (houter _ _ found)
  | inside found outer ih => exact .inside (houter _ _ found) ih

section Older
variable {calls : List Call} {handed : List ScopeId} (hs : s.Reflects calls handed)
include hs

/-- Every scope has a chain, as parents are older. -/
lemma exists_of_lt (hid : id.index < s.scopes.size) : ∃ chain, s.Chain id chain := by
  induction hindex : id.index using Nat.strongRecOn generalizing id with
  | ind index ih =>
    obtain ⟨parent, hparent⟩ := Option.isSome_iff_exists.mp ((s.isSome_outer? id).mpr hid)
    cases parent with
    | none => exact ⟨[id], .outermost hparent⟩
    | some parent =>
      have hlt := hs.older hparent
      obtain ⟨chain, hchain⟩ := ih parent.index (hindex ▸ hlt) (hlt.trans hid) rfl
      exact ⟨id :: chain, .inside hparent hchain⟩

lemma index_le (h : s.Chain id chain) : ∀ v ∈ chain, v.index ≤ id.index := by
  induction h with
  | outermost => simp
  | inside found outer ih =>
    intro v hv
    obtain rfl | hv := List.mem_cons.mp hv
    · exact le_rfl
    · exact (ih v hv).trans (hs.older found).le

lemma decreasing (h : s.Chain id chain) :
    chain.Pairwise (fun inner outer => outer.index < inner.index) := by
  induction h with
  | outermost => exact List.pairwise_singleton ..
  | inside found outer ih =>
    exact .cons (fun v hv => (outer.index_le hs v hv).trans_lt (hs.older found)) ih

lemma length_le (h : s.Chain id chain) : chain.length ≤ id.index + 1 := by
  induction h with
  | outermost => simp
  | inside found outer ih =>
    have hlt := hs.older found
    simp only [List.length_cons]
    omega

lemma getLast? (h : s.Chain id chain) : chain.getLast? = some global := by
  induction h with
  | outermost found => rw [hs.root found]; rfl
  | inside found outer ih => rw [List.getLast?_cons, ih]; rfl

end Older

end Chain

/-- Looking a name up, with the scopes that are visited on the way. -/
def searchWithin (s : Scopes) (name : String) (depth : Nat) (id : ScopeId) :
    Except Violation (List ScopeId × Option Item) := do
  let scope ← s.get id
  match scope.names.lookup name, scope.parent with
  | some item, _ => return ([id], some item)
  | none, none => return ([id], none)
  | none, some parent =>
    match depth with
    | 0 => throw .endlessNesting
    | depth + 1 =>
      let (visited, answer) ← s.searchWithin name depth parent
      return (id :: visited, answer)

/-- Looking a name up is a search whose visits are forgotten. -/
lemma lookupWithin_eq (s : Scopes) (name : String) (depth : Nat) (id : ScopeId) :
    s.lookupWithin name depth id = Prod.snd <$> s.searchWithin name depth id := by
  induction depth generalizing id with
  | zero =>
    rw [lookupWithin, searchWithin]
    cases s.get id with
    | error v => rfl
    | ok scope =>
      simp only [bind, Except.bind]
      cases scope.names.lookup name <;> cases scope.parent <;> rfl
  | succ depth ih =>
    rw [lookupWithin, searchWithin]
    cases s.get id with
    | error v => rfl
    | ok scope =>
      simp only [bind, Except.bind, ih]
      cases scope.names.lookup name with
      | some item => rfl
      | none =>
        cases scope.parent with
        | none => rfl
        | some parent =>
          dsimp only
          cases s.searchWithin name depth parent <;> rfl

section Search
variable {s : Scopes} {id : ScopeId} {name : String}

lemma exists_get {parent : Option ScopeId} (h : s.outer? id = some parent) (name : String) :
    ∃ scope, s.get id = .ok scope ∧ scope.parent = parent ∧
      scope.names.lookup name = s.declared id name := by
  obtain ⟨scope, hscope, hparent⟩ := Option.map_eq_some_iff.mp h
  exact ⟨scope, fetch_eq_ok.mpr hscope, hparent, by rw [declared, hscope, Option.bind_some]⟩

lemma search_declared {parent : Option ScopeId} (h : s.outer? id = some parent) {item : Item}
    (hitem : s.declared id name = some item) (depth : Nat) :
    s.searchWithin name depth id = .ok ([id], some item) := by
  obtain ⟨scope, hscope, -, hnames⟩ := exists_get h name
  rw [searchWithin, hscope]
  simp only [bind, Except.bind, hnames, hitem]
  rfl

lemma search_outermost (h : s.outer? id = some none) (hnone : s.declared id name = none)
    (depth : Nat) : s.searchWithin name depth id = .ok ([id], none) := by
  obtain ⟨scope, hscope, hparent, hnames⟩ := exists_get h name
  rw [searchWithin, hscope]
  simp only [bind, Except.bind, hnames, hnone, hparent]
  rfl

lemma search_inside {parent : ScopeId} (h : s.outer? id = some (some parent))
    (hnone : s.declared id name = none) {depth : Nat} {visited : List ScopeId}
    {answer : Option Item} (houter : s.searchWithin name depth parent = .ok (visited, answer)) :
    s.searchWithin name (depth + 1) id = .ok (id :: visited, answer) := by
  obtain ⟨scope, hscope, hparent, hnames⟩ := exists_get h name
  rw [searchWithin, hscope]
  simp only [bind, Except.bind, hnames, hnone, hparent, houter]
  rfl

/-- The scopes of a chain up to the first one that declares the name. -/
def upTo (s : Scopes) (name : String) : List ScopeId → List ScopeId
  | [] => []
  | id :: chain => id :: if (s.declared id name).isSome then [] else s.upTo name chain

lemma upTo_prefix (chain : List ScopeId) : s.upTo name chain <+: chain := by
  induction chain with
  | nil => exact List.prefix_rfl
  | cons id chain ih =>
    rw [upTo, List.prefix_cons_inj]
    split
    · exact List.nil_prefix
    · exact ih

lemma upTo_of_forall {chain : List ScopeId} (h : ∀ id ∈ chain, s.declared id name = none) :
    s.upTo name chain = chain := by
  induction chain with
  | nil => rfl
  | cons id chain ih =>
    obtain ⟨hid, hchain⟩ := List.forall_mem_cons.mp h
    rw [upTo, hid, ih hchain]
    rfl

/-- A search goes along the chain, as far as the first scope that declares the name. -/
lemma search_chain {chain : List ScopeId} (h : s.Chain id chain) {depth : Nat}
    (hdepth : chain.length ≤ depth + 1) (name : String) :
    s.searchWithin name depth id =
      .ok (s.upTo name chain, chain.findSome? (s.declared · name)) := by
  induction h generalizing depth with
  | outermost found =>
    rw [List.findSome?_singleton, upTo]
    cases hitem : s.declared _ name with
    | none => exact search_outermost found hitem depth
    | some item => exact search_declared found hitem depth
  | @inside id parent chain found outer ih =>
    rw [List.findSome?_cons, upTo]
    cases hitem : s.declared id name with
    | some item => exact search_declared found hitem depth
    | none =>
      cases depth with
      | zero =>
        rw [List.length_cons] at hdepth
        cases outer <;> simp at hdepth
      | succ depth => exact search_inside found hitem (ih (by simpa using hdepth))

/-- The depth that a lookup starts with is enough for any chain that is no longer than there are
scopes. -/
lemma lookup_chain {chain : List ScopeId} (h : s.Chain id chain)
    (hlength : chain.length ≤ s.scopes.size) (name : String) :
    s.lookup id name = .ok (chain.findSome? (s.declared · name)) := by
  rw [lookup, lookupWithin_eq, search_chain h (by omega)]
  rfl

end Search

section Frame
variable {s s' : Scopes} {id : ScopeId} {chain : List ScopeId} (h : s.Chain id chain)
  (hlength : chain.length ≤ s.scopes.size)
include h hlength

/-- Creating a scope changes no lookup from another one. -/
lemma lookup_create (parent : ScopeId) (kind : ScopeKind) (name : String) :
    (s.create parent kind).2.lookup id name = s.lookup id name := by
  have hchain : (s.create parent kind).2.Chain id chain := by
    refine h.congr fun v p hv => ?_
    have hlt := (s.isSome_outer? v).mp (hv ▸ rfl)
    rw [outer?_create, if_neg hlt.ne, hv]
  have hsize : chain.length ≤ (s.create parent kind).2.scopes.size := by
    rw [create, Array.size_push]
    omega
  rw [lookup_chain hchain hsize, lookup_chain h hlength]
  simp only [declared_create]

/-- A declaration changes no lookup that ends, or finds its answer, before it would come to what the
declaration changes. -/
lemma lookup_declare {scope : ScopeId} {name other : String} {item : Item} {old : Option Item}
    (hdeclare : s.declare scope name item = .ok (old, s')) {nearer farther : List ScopeId}
    (hsplit : chain = nearer ++ farther)
    (hsame : ∀ v ∈ nearer, (Call.declare scope name item).item? v other = none)
    (hfound : farther = [] ∨ ∃ v ∈ nearer, (s.declared v other).isSome) :
    s'.lookup id other = s.lookup id other := by
  have hchain : s'.Chain id chain :=
    h.congr fun v p hv => (outer?_declare hdeclare v).trans hv
  have hsize : chain.length ≤ s'.scopes.size := by
    obtain ⟨-, rfl⟩ := declare_eq_ok hdeclare
    rwa [Array.size_modify]
  have hnearer : nearer.findSome? (s'.declared · other) =
      nearer.findSome? (s.declared · other) := by
    rw [← List.head?_filterMap, ← List.head?_filterMap]
    refine congrArg List.head? (List.filterMap_congr fun v hv => ?_)
    rw [declared_declare hdeclare, hsame v hv, Option.none_or]
  rw [lookup_chain hchain hsize, lookup_chain h hlength, hsplit, List.findSome?_append,
    List.findSome?_append, hnearer]
  obtain rfl | hfound := hfound
  · rfl
  · obtain ⟨found, hfound⟩ := Option.isSome_iff_exists.mp (List.findSome?_isSome_iff.mpr hfound)
    rw [hfound, Option.some_or, Option.some_or]

end Frame

/-- Looking a name up finds the innermost declaration. The scopes around one form a chain of ever
older scopes down to the global one. Looking a name up visits them in order, whatever depth it is
allowed above that of the scope, and answers with the latest declaration in the first one that
declares the name. A declaration changes no lookup of other names, none whose chain does not hold its
scope, and none that meets a nearer declaration first; a new scope changes none at all. -/
theorem lookup_finds_innermost {calls : List Call} {handed : List ScopeId} {s : Scopes}
    (built : Built calls handed s) {id : ScopeId} (hid : id ∈ handed) :
    ∃ chain, s.Chain id chain ∧
      chain.Pairwise (fun inner outer => outer.index < inner.index) ∧
      chain.getLast? = some global ∧
      (∀ name, s.lookup id name = .ok (chain.findSome? (latest calls · name)) ∧
        ∃ visited, visited <+: chain ∧
          (chain.findSome? (latest calls · name) = none → visited = chain) ∧
          ∀ depth, id.index ≤ depth → s.searchWithin name depth id =
            .ok (visited, chain.findSome? (latest calls · name))) ∧
      (∀ scope name item old s', s.declare scope name item = .ok (old, s') →
        (∀ other, other ≠ name → s'.lookup id other = s.lookup id other) ∧
        (scope ∉ chain → ∀ other, s'.lookup id other = s.lookup id other) ∧
        ∀ nearer farther, chain = nearer ++ scope :: farther →
          (∃ v ∈ nearer, (latest calls v name).isSome) →
            s'.lookup id name = s.lookup id name) ∧
      ∀ parent kind name, (s.create parent kind).2.lookup id name = s.lookup id name := by
  have hs := built.reflects
  have hlt := (hs.handed id).mp hid
  obtain ⟨chain, hchain⟩ := Chain.exists_of_lt hs hlt
  have hlength := hchain.length_le hs
  have hsize : chain.length ≤ s.scopes.size := hlength.trans hlt
  have hdecreasing := hchain.decreasing hs
  have hdeclared : latest calls = s.declared := by
    funext v name
    exact (hs.declared v name).symm
  rw [hdeclared]
  refine ⟨chain, hchain, hdecreasing, hchain.getLast? hs, ?_, ?_, lookup_create hchain hsize⟩
  · intro name
    refine ⟨lookup_chain hchain hsize name, s.upTo name chain, upTo_prefix chain, ?_, ?_⟩
    · intro hnone
      exact upTo_of_forall (List.findSome?_eq_none_iff.mp hnone)
    · intro depth hdepth
      exact search_chain hchain (by omega) name
  · intro scope name item old s' hdeclare
    have hwhole : chain = chain ++ [] := (List.append_nil chain).symm
    refine ⟨?_, ?_, ?_⟩
    · intro other hother
      refine lookup_declare hchain hsize hdeclare hwhole (fun v _ => ?_) (.inl rfl)
      exact if_neg fun h => hother h.2.symm
    · intro hscope other
      refine lookup_declare hchain hsize hdeclare hwhole (fun v hv => if_neg ?_) (.inl rfl)
      rintro ⟨rfl, -⟩
      exact hscope hv
    · rintro nearer farther hsplit hfound
      refine lookup_declare hchain hsize hdeclare hsplit (fun v hv => ?_) (.inr hfound)
      -- the scope of the declaration comes later in the chain, so it is older
      rw [hsplit, List.pairwise_append] at hdecreasing
      have hv := hdecreasing.2.2 v hv scope List.mem_cons_self
      exact if_neg fun h => hv.ne (congrArg ScopeId.index h.1)

/-- A class is declared in a namespace, and another one of the same name in a scope inside it. The
inner one is found, and declaring the name once more in the namespace does not change that. -/
theorem lookup_finds_innermost_shadowed :
    ∃ calls handed s, Built calls handed s ∧ ⟨2⟩ ∈ handed ∧ s.Chain ⟨2⟩ [⟨2⟩, ⟨1⟩, global] ∧
      latest calls ⟨1⟩ "Program" = some (.ofClass ⟨0⟩) ∧
      s.lookup ⟨2⟩ "Program" = .ok (some (.ofClass ⟨1⟩)) ∧
      ∀ item old s', s.declare ⟨1⟩ "Program" item = .ok (old, s') →
        s'.lookup ⟨2⟩ "Program" = .ok (some (.ofClass ⟨1⟩)) := by
  have hspace := Built.initial.create (.head _) (.nameSpace "Demo") rfl
  have hclass := hspace.create (.head _) .ofClass rfl
  have houter : Built (_ ++ [.declare ⟨1⟩ "Program" (.ofClass ⟨0⟩)]) _ _ := hclass.declare rfl
  have built : Built (_ ++ [.declare ⟨2⟩ "Program" (.ofClass ⟨1⟩)]) _ _ := houter.declare rfl
  obtain ⟨chain, hchain, -, -, hlookup, hdeclare, -⟩ :=
    @lookup_finds_innermost _ _ _ built ⟨2⟩ (.head _)
  obtain rfl : chain = [⟨2⟩, ⟨1⟩, global] := by
    obtain ⟨⟨⟩⟩ | ⟨⟨⟩, ⟨⟨⟩⟩ | ⟨⟨⟩, ⟨⟩ | ⟨⟨⟩, -⟩⟩⟩ := hchain
    rfl
  have hfound := (hlookup "Program").1
  refine ⟨_, _, _, built, .head _, hchain, rfl, hfound, ?_⟩
  intro item old s' h
  have hsame := (hdeclare _ _ _ _ _ h).2.2 [⟨2⟩] [global] rfl ⟨⟨2⟩, .head _, rfl⟩
  exact hsame.trans hfound

end CilAssembly.Scopes
