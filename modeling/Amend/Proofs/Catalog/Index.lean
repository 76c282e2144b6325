import Amend.Proofs.Catalog.Insertion
import Std.Data.HashMap.Lemmas

/-!
# Catalogs with an index

A catalog may keep the positions of its sets by the normal forms of their files, so that a file is
looked up without going through the sets. Such an index is in step with the sets whatever is
inserted, a set whose file is bound already included: what is built with it is the catalog that is
built without it, with the same faults (`IndexedCatalog.catalog_ofRuleSets`,
`IndexedCatalog.catalog_ofDefinition`), and the same files are found in it
(`IndexedCatalog.get?_catalog`).
-/

set_option autoImplicit false

namespace Amend

/-- A catalog with an index of its sets. The index has the positions of the sets by the normal forms
of their files, and nothing else. -/
structure IndexedCatalog where
  sets : Array RuleSet
  index : Std.HashMap Path Nat
  descriptions : List (String × String)
  inStep : ∀ (key : Path) (i : Nat),
    index[key]? = some i ↔ ∃ set : RuleSet, sets[i]? = some set ∧ set.file.normalize = key

namespace IndexedCatalog

theorem lt_size (k : IndexedCatalog) {key : Path} {i : Nat} (h : k.index[key]? = some i) :
    i < k.sets.size := by
  obtain ⟨set, hset, -⟩ := (k.inStep key i).mp h
  exact (Array.getElem?_eq_some_iff.mp hset).1

/-- A set for a free file keeps the index in step. -/
theorem inStep_push (k : IndexedCatalog) {set : RuleSet}
    (h : k.index[set.file.normalize]? = none) (key : Path) (i : Nat) :
    (k.index.insert set.file.normalize k.sets.size)[key]? = some i ↔
      ∃ s : RuleSet, (k.sets.push set)[i]? = some s ∧ s.file.normalize = key := by
  rw [Std.HashMap.getElem?_insert, Array.getElem?_push]
  by_cases hkey : set.file.normalize = key
  · rw [if_pos (beq_iff_eq.mpr hkey), Option.some.injEq]
    constructor
    · rintro rfl
      exact ⟨set, if_pos rfl, hkey⟩
    · rintro ⟨s, hs, hsame⟩
      split at hs
      · next hi => exact hi.symm
      · have hindex := (k.inStep key i).mpr ⟨s, hs, hsame⟩
        rw [← hkey, h] at hindex
        cases hindex
  · rw [if_neg (beq_iff_eq.not.mpr hkey), k.inStep]
    constructor
    · rintro ⟨s, hs, hsame⟩
      have hlt := (Array.getElem?_eq_some_iff.mp hs).1
      exact ⟨s, (if_neg (Nat.ne_of_lt hlt)).trans hs, hsame⟩
    · rintro ⟨s, hs, hsame⟩
      split at hs
      · cases hs
        exact absurd hsame hkey
      · exact ⟨s, hs, hsame⟩

/-- The catalog without sets. -/
def empty : IndexedCatalog where
  sets := #[]
  index := ∅
  descriptions := []
  inStep := by simp

/-- The set for a file. -/
def get? (k : IndexedCatalog) (file : Path) : Option RuleSet :=
  match h : k.index[file.normalize]? with
  | some i =>
    have := k.lt_size h
    some k.sets[i]
  | none => none

/-- The catalog with one more set. -/
def insert (k : IndexedCatalog) (set : RuleSet) : Except ConfigFault IndexedCatalog :=
  match h : k.index[set.file.normalize]? with
  | some i =>
    have := k.lt_size h
    .error (.boundTwice set.file.normalize k.sets[i].name set.name)
  | none => .ok {
      k with
      sets := k.sets.push set
      index := k.index.insert set.file.normalize k.sets.size
      inStep := k.inStep_push h }

/-- The catalog with what the sets called `name` are about. -/
def describe (k : IndexedCatalog) (name : String) : Option String → IndexedCatalog
  | some text => { k with descriptions := (name, text) :: k.descriptions }
  | none => k

/-- The catalog of these sets. -/
def ofRuleSets (sets : List RuleSet) : Except ConfigFault IndexedCatalog :=
  sets.foldlM insert empty

/-- The catalog with one more file of a set. -/
def bindFile (s : RuleSetDefinition) (declared : List Rule) (k : IndexedCatalog) (file : Path) :
    Except ConfigFault IndexedCatalog := do
  k.insert (← RuleSet.build s.name file.normalize declared
    (s.fields.map FieldSpecDefinition.toSpec))

/-- The catalog with the sets that `s` defines, one for each of its files. -/
def insertDefinition (k : IndexedCatalog) (s : RuleSetDefinition) :
    Except ConfigFault IndexedCatalog := do
  if s.files.isEmpty then
    throw (.noFiles s.name)
  let declared ← s.rules.mapM RuleDefinition.toRule
  let k ← s.files.foldlM (bindFile s declared) k
  return k.describe s.name s.description

/-- The catalog that is defined. -/
def ofDefinition (d : CatalogDefinition) : Except ConfigFault IndexedCatalog :=
  d.ruleSets.foldlM insertDefinition empty

/-! ## The catalog without its index -/

/-- The catalog itself. -/
def catalog (k : IndexedCatalog) : Catalog :=
  ⟨k.sets.toList, k.descriptions⟩

variable {k : IndexedCatalog} {set : RuleSet}

theorem get?_eq_some {file : Path} :
    k.get? file = some set ↔ set ∈ k.sets ∧ set.file.normalize = file.normalize := by
  unfold get?
  split
  · next i hi =>
    obtain ⟨s, hs, hkey⟩ := (k.inStep _ _).mp hi
    obtain ⟨hlt, rfl⟩ := Array.getElem?_eq_some_iff.mp hs
    rw [Option.some.injEq]
    constructor
    · rintro rfl
      exact ⟨Array.getElem_mem hlt, hkey⟩
    · rintro ⟨hmem, hsame⟩
      obtain ⟨j, hj⟩ := Array.getElem?_of_mem hmem
      have hij := (k.inStep _ _).mpr ⟨set, hj, hsame⟩
      rw [hi] at hij
      obtain rfl := Option.some.inj hij
      exact Option.some.inj (hs.symm.trans hj)
  · next hnone =>
    refine iff_of_false nofun ?_
    rintro ⟨hmem, hsame⟩
    obtain ⟨j, hj⟩ := Array.getElem?_of_mem hmem
    rw [(k.inStep _ _).mpr ⟨set, hj, hsame⟩] at hnone
    cases hnone

theorem get?_eq_none {file : Path} (h : k.index[file.normalize]? = none) :
    k.get? file = none := by
  unfold get?
  split
  · next hi =>
    rw [h] at hi
    cases hi
  · rfl

/-- The index finds what going through the sets finds. -/
theorem get?_catalog (k : IndexedCatalog) (file : Path) : k.catalog.get? file = k.get? file := by
  cases hget : k.get? file with
  | some set =>
    obtain ⟨hmem, hkey⟩ := get?_eq_some.mp hget
    cases hfind : k.catalog.get? file with
    | none =>
      have hno := List.find?_eq_none.mp hfind set (Array.mem_toList_iff.mpr hmem)
      exact absurd (decide_eq_true hkey) hno
    | some s =>
      have hs := List.mem_of_find?_eq_some hfind
      have hskey : s.file.normalize = file.normalize := by simpa using List.find?_some hfind
      have hget' := get?_eq_some.mpr ⟨Array.mem_toList_iff.mp hs, hskey⟩
      rw [← hget', hget]
  | none =>
    refine List.find?_eq_none.mpr fun s hs hkey => ?_
    have hget' := get?_eq_some.mpr ⟨Array.mem_toList_iff.mp hs, of_decide_eq_true hkey⟩
    rw [hget] at hget'
    cases hget'

/-- A set is inserted, or it is rejected, as it is without an index. -/
theorem catalog_insert (k : IndexedCatalog) (set : RuleSet) :
    (k.insert set).map catalog = k.catalog.insert set := by
  unfold insert Catalog.insert
  split
  · next i hi =>
    obtain ⟨s, hs, hkey⟩ := (k.inStep _ _).mp hi
    obtain ⟨hlt, rfl⟩ := Array.getElem?_eq_some_iff.mp hs
    rw [get?_catalog, get?_eq_some.mpr ⟨Array.getElem_mem hlt, hkey⟩]
    rfl
  · next hnone =>
    rw [get?_catalog, get?_eq_none hnone]
    simp [Except.map, catalog]

theorem foldlM_map_eq {α β γ ε : Type} {f : β → α → Except ε β} {g : γ → α → Except ε γ}
    {φ : γ → β} (h : ∀ c x, (g c x).map φ = f (φ c) x) (xs : List α) (c : γ) :
    (xs.foldlM g c).map φ = xs.foldlM f (φ c) := by
  induction xs generalizing c with
  | nil => rfl
  | cons x xs ih =>
    rw [List.foldlM_cons, List.foldlM_cons, ← h]
    cases g c x with
    | error e => rfl
    | ok c' => exact ih c'

theorem catalog_ofRuleSets (sets : List RuleSet) :
    (ofRuleSets sets).map catalog = Catalog.ofRuleSets sets :=
  foldlM_map_eq catalog_insert sets empty

theorem catalog_bindFile (s : RuleSetDefinition) (declared : List Rule) (k : IndexedCatalog)
    (file : Path) :
    (bindFile s declared k file).map catalog = Catalog.bindFile s declared k.catalog file := by
  unfold bindFile Catalog.bindFile
  cases RuleSet.build s.name file.normalize declared (s.fields.map FieldSpecDefinition.toSpec) with
  | error fault => rfl
  | ok set => exact catalog_insert k set

theorem catalog_describe (k : IndexedCatalog) (name : String) (text : Option String) :
    (k.describe name text).catalog = k.catalog.describe name text := by
  cases text <;> rfl

theorem catalog_insertDefinition (k : IndexedCatalog) (s : RuleSetDefinition) :
    (k.insertDefinition s).map catalog = k.catalog.insertDefinition s := by
  by_cases hfiles : s.files = []
  · simp [insertDefinition, Catalog.insertDefinition, hfiles, throw, throwThe, MonadExceptOf.throw,
      Except.map, bind, Except.bind]
  cases hdeclared : s.rules.mapM RuleDefinition.toRule with
  | error fault =>
    rw [Catalog.insertDefinition_eq_error hfiles hdeclared, insertDefinition,
      if_neg (by simpa using hfiles), hdeclared]
    rfl
  | ok declared =>
    have hfold := foldlM_map_eq (catalog_bindFile s declared) s.files k
    rw [Catalog.insertDefinition_eq hfiles hdeclared, ← hfold, insertDefinition,
      if_neg (by simpa using hfiles), hdeclared]
    cases hafter : s.files.foldlM (bindFile s declared) k with
    | error fault => simp [hafter, Except.map, bind, Except.bind]
    | ok k' => simp [hafter, Except.map, bind, Except.bind, pure, Except.pure, catalog_describe]

theorem catalog_ofDefinition (d : CatalogDefinition) :
    (ofDefinition d).map catalog = Catalog.ofDefinition d :=
  foldlM_map_eq catalog_insertDefinition d.ruleSets empty

/-- The catalog is kept with this index, and files are found by it. -/
def Serves (k : IndexedCatalog) (c : Catalog) : Prop :=
  k.catalog = c ∧ ∀ q, k.get? q = c.get? q

theorem exists_serves {r : Except ConfigFault IndexedCatalog} {c : Catalog}
    (h : r.map catalog = .ok c) : ∃ k, r = .ok k ∧ k.Serves c := by
  cases r with
  | error fault => cases h
  | ok k =>
    cases h
    exact ⟨k, rfl, rfl, fun q => (k.get?_catalog q).symm⟩

end IndexedCatalog

end Amend
