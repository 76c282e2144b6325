import Amend.Console.Listing
import Amend.Proofs.Catalog.Lookup

/-!
# What the listing of a catalog shows

The groups of a catalog partition its sets by name: no two groups have one name, the names stand
in the order in which they appear, and each file is listed in one group (`Grouped`). A group shows
the rules of its first set only. These are the rules of every set that is listed there exactly if
sets of one name have one list of rules (`listing_faithful_iff`). A definition may give one name to
two sets with rules of their own, and the rules of the second are not to be seen then
(`sharedName_not_faithful`).
-/

set_option autoImplicit false

namespace Amend

/-! ## Groups -/

namespace RuleSetGroup

/-- The file is listed in the group. -/
def Lists (g : RuleSetGroup) (file : Path) : Prop :=
  ∃ set ∈ g.sets, set.file = file

/-- The sets stand in groups by name, in the order in which the names appear. -/
structure Grouped (sets : List RuleSet) (groups : List RuleSetGroup) : Prop where
  names : groups.map name = (sets.map RuleSet.name).eraseDups
  distinct : (groups.map name).Nodup
  members : ∀ g ∈ groups, g.sets = sets.filter (·.name = g.name)

variable {sets : List RuleSet} {set : RuleSet} {groups : List RuleSetGroup} {g g' : RuleSetGroup}

theorem name_mk (first : RuleSet) (others : List RuleSet) : name ⟨first, others⟩ = first.name := rfl

theorem sets_mk (first : RuleSet) (others : List RuleSet) :
    RuleSetGroup.sets ⟨first, others⟩ = first :: others := rfl

theorem map_name_insert (set : RuleSet) (groups : List RuleSetGroup) :
    (insert set groups).map name =
      if set.name ∈ groups.map name then groups.map name else groups.map name ++ [set.name] := by
  induction groups with
  | nil => rfl
  | cons g rest ih =>
    rw [insert]
    by_cases heq : g.name = set.name
    · rw [if_pos heq, List.map_cons, List.map_cons, name_mk, ← name, heq,
        if_pos List.mem_cons_self]
    · rw [if_neg heq, List.map_cons, ih, List.map_cons]
      by_cases hmem : set.name ∈ rest.map name
      · rw [if_pos hmem, if_pos (List.mem_cons_of_mem _ hmem)]
      · rw [if_neg hmem, if_neg (by simp [hmem, Ne.symm heq]), List.cons_append]

/-- A group after the insertion of a set: one of another name, the one of its name with the set at
the end, or a new one. -/
theorem of_mem_insert (hdistinct : (groups.map name).Nodup) (h : g ∈ insert set groups) :
    (g ∈ groups ∧ g.name ≠ set.name) ∨
    (∃ g' ∈ groups, g'.name = set.name ∧ g = { g' with others := g'.others ++ [set] }) ∨
    (set.name ∉ groups.map name ∧ g = ⟨set, []⟩) := by
  induction groups with
  | nil => exact .inr (.inr ⟨List.not_mem_nil, List.mem_singleton.mp h⟩)
  | cons head rest ih =>
    obtain ⟨hhead, hrest⟩ := List.nodup_cons.mp hdistinct
    rw [insert] at h
    by_cases heq : head.name = set.name
    · rw [if_pos heq] at h
      rcases List.mem_cons.mp h with rfl | h
      · exact .inr (.inl ⟨head, List.mem_cons_self, heq, rfl⟩)
      · refine .inl ⟨List.mem_cons_of_mem _ h, fun hname => hhead ?_⟩
        exact List.mem_map.mpr ⟨g, h, hname.trans heq.symm⟩
    · rw [if_neg heq] at h
      rcases List.mem_cons.mp h with rfl | h
      · exact .inl ⟨List.mem_cons_self, heq⟩
      · rcases ih hrest h with ⟨hg, hname⟩ | ⟨g', hg', hname, rfl⟩ | ⟨hnew, rfl⟩
        · exact .inl ⟨List.mem_cons_of_mem _ hg, hname⟩
        · exact .inr (.inl ⟨g', List.mem_cons_of_mem _ hg', hname, rfl⟩)
        · exact .inr (.inr ⟨by simp [Ne.symm heq, hnew], rfl⟩)

/-- One more set keeps the groups in order. -/
theorem Grouped.insert (h : Grouped sets groups) (set : RuleSet) :
    Grouped (sets ++ [set]) (insert set groups) := by
  have hknown : set.name ∈ groups.map name ↔ set.name ∈ sets.map RuleSet.name := by
    rw [h.names, List.mem_eraseDups]
  refine ⟨?_, ?_, fun g hg => ?_⟩
  · rw [map_name_insert, List.map_append, List.eraseDups_append, h.names]
    by_cases hmem : set.name ∈ sets.map RuleSet.name
    · rw [if_pos (List.mem_eraseDups.mpr hmem)]
      simp [List.removeAll, List.mem_map.mp hmem]
    · rw [if_neg (List.mem_eraseDups.not.mpr hmem)]
      have hnew : List.removeAll [set.name] (sets.map RuleSet.name) = [set.name] := by
        simpa [List.removeAll] using hmem
      rw [List.map_singleton, hnew]
      rfl
  · rw [map_name_insert]
    by_cases hmem : set.name ∈ groups.map name
    · rw [if_pos hmem]
      exact h.distinct
    · rw [if_neg hmem, ← List.concat_eq_append]
      exact h.distinct.concat hmem
  · rw [List.filter_append]
    rcases of_mem_insert h.distinct hg with ⟨hg, hname⟩ | ⟨g', hg', hname, rfl⟩ | ⟨hnew, rfl⟩
    · rw [h.members g hg]
      simp [Ne.symm hname]
    · have hsets : g'.first :: g'.others = sets.filter (·.name = g'.first.name) :=
        h.members g' hg'
      rw [name_mk, sets_mk, ← hsets]
      simp [← hname, name]
    · have hnone : sets.filter (·.name = set.name) = [] := by
        rw [hknown] at hnew
        simpa [List.filter_eq_nil_iff] using hnew
      rw [name_mk, sets_mk, hnone]
      simp

theorem Grouped.eq_of_name_eq (h : Grouped sets groups) (hg : g ∈ groups) (hg' : g' ∈ groups)
    (hname : g.name = g'.name) : g = g' :=
  List.inj_on_of_nodup_map h.distinct hg hg' hname

theorem Grouped.exists_group (h : Grouped sets groups) (hset : set ∈ sets) :
    ∃ g ∈ groups, g.name = set.name := by
  refine List.mem_map.mp ?_
  rw [h.names, List.mem_eraseDups]
  exact List.mem_map_of_mem hset

theorem Grouped.mem_sets_iff (h : Grouped sets groups) (hg : g ∈ groups) :
    set ∈ g.sets ↔ set ∈ sets ∧ set.name = g.name := by
  rw [h.members g hg]
  simp

end RuleSetGroup

namespace Catalog

open RuleSetGroup

variable {c : Catalog} {s : RuleSet} {g : RuleSetGroup}

theorem grouped_groups (c : Catalog) : Grouped c.sets c.groups := by
  unfold groups
  generalize c.sets = sets
  induction sets using List.reverseRecOn with
  | nil => exact ⟨rfl, .nil, nofun⟩
  | append_singleton sets set ih =>
    rw [List.foldl_append]
    exact ih.insert set

theorem first_mem_sets (hg : g ∈ c.groups) : g.first ∈ c.sets :=
  ((c.grouped_groups.mem_sets_iff hg).mp List.mem_cons_self).1

/-! ## Sets in their groups -/

theorem Built.lists_iff (h : c.Built) (hs : s ∈ c.sets) (hg : g ∈ c.groups) :
    g.Lists s.file ↔ g.name = s.name := by
  constructor
  · rintro ⟨s', hs', hfile⟩
    obtain ⟨hmem, hname⟩ := (c.grouped_groups.mem_sets_iff hg).mp hs'
    obtain rfl := h.eq_of_normalize_eq hmem hs (by rw [hfile])
    exact hname.symm
  · intro hname
    exact ⟨s, (c.grouped_groups.mem_sets_iff hg).mpr ⟨hs, hname.symm⟩, rfl⟩

theorem Built.existsUnique_group (h : c.Built) (hs : s ∈ c.sets) :
    ∃! g, g ∈ c.groups ∧ g.Lists s.file := by
  obtain ⟨g, hg, hname⟩ := c.grouped_groups.exists_group hs
  refine ⟨g, ⟨hg, (h.lists_iff hs hg).mpr hname⟩, ?_⟩
  rintro g' ⟨hg', hlists⟩
  exact c.grouped_groups.eq_of_name_eq hg' hg (((h.lists_iff hs hg').mp hlists).trans hname.symm)

/-- What the first set of a group has is what all the sets that are listed there have exactly if
sets of one name have it in common. -/
theorem Built.first_eq_iff (h : c.Built) {α : Type} (f : RuleSet → α) :
    (∀ s ∈ c.sets, ∀ g ∈ c.groups, g.Lists s.file → f g.first = f s) ↔
      ∀ s ∈ c.sets, ∀ s' ∈ c.sets, s.name = s'.name → f s = f s' := by
  constructor
  · intro hfirst s hs s' hs' hname
    obtain ⟨g, hg, hgroup⟩ := c.grouped_groups.exists_group hs
    rw [← hfirst s hs g hg ((h.lists_iff hs hg).mpr hgroup),
      hfirst s' hs' g hg ((h.lists_iff hs' hg).mpr (hgroup.trans hname))]
  · intro hcommon s hs g hg hlists
    exact hcommon g.first (first_mem_sets hg) s hs ((h.lists_iff hs hg).mp hlists)

end Catalog

/-! ## Rules under their files -/

namespace Console

/-- The lines of a group above its rules. -/
def groupHead (on : Bool) (c : Catalog) (g : RuleSetGroup) : List String :=
  groupLines on c { g with first := { g.first with rules := [] } }

/-- The lines of rules, in the order in which they are applied. -/
def ruleLines (on : Bool) (rules : List Rule) : List String :=
  rules.map fun r => "      " ++ ruleLine on r

theorem groupLines_eq (on : Bool) (c : Catalog) (g : RuleSetGroup) :
    groupLines on c g = groupHead on c g ++ ruleLines on g.first.rules := by
  simp [groupLines, groupHead, ruleLines, RuleSetGroup.name, RuleSetGroup.sets]

end Console

/-- The rules that stand under a file are those of its set. -/
def Catalog.Faithful (c : Catalog) : Prop :=
  ∀ s ∈ c.sets, ∀ g ∈ c.groups, g.Lists s.file → g.first.rules = s.rules

/-- The groups of a catalog partition its sets by name, and each lists the rules of its first set,
which is the one that is found under its first file. The rules under each file, and their lines,
are those of its set exactly if sets of one name have them in common. This is so for a catalog
whose definition gives no name twice. -/
theorem Catalog.listing_faithful_iff (c : Catalog) (h : c.Built) :
    RuleSetGroup.Grouped c.sets c.groups ∧
    (∀ s ∈ c.sets, ∃! g, g ∈ c.groups ∧ g.Lists s.file) ∧
    (∀ g ∈ c.groups, c.get? g.first.file = some g.first) ∧
    (c.Faithful ↔ ∀ s ∈ c.sets, ∀ s' ∈ c.sets, s.name = s'.name → s.rules = s'.rules) ∧
    (∀ on, (∀ s ∈ c.sets, ∀ g ∈ c.groups, g.Lists s.file →
        Console.groupLines on c g = Console.groupHead on c g ++ Console.ruleLines on s.rules) ↔
      ∀ s ∈ c.sets, ∀ s' ∈ c.sets, s.name = s'.name →
        Console.ruleLines on s.rules = Console.ruleLines on s'.rules) ∧
    ∀ d, Catalog.ofDefinition d = .ok c → (d.ruleSets.map RuleSetDefinition.name).Nodup →
      c.Faithful := by
  refine ⟨c.grouped_groups, fun s hs => h.existsUnique_group hs,
    fun g hg => h.get?_file (first_mem_sets hg), h.first_eq_iff RuleSet.rules, fun on => ?_,
    fun d hd hnames => ?_⟩
  · simp only [Console.groupLines_eq, List.append_cancel_left_eq]
    exact h.first_eq_iff fun s => Console.ruleLines on s.rules
  · exact (h.first_eq_iff RuleSet.rules).mpr fun s hs s' hs' =>
      ofDefinition_rules_eq hd hnames hs hs'

/-! ## Rules that are not to be seen -/

/-- Two sets of one name, each with a file and a rule of its own. -/
def sharedName : CatalogDefinition :=
  let set (file : Path) (id pattern replacement : String) : RuleSetDefinition :=
    ⟨"fixes", none, [file], [⟨id, none, pattern, false, some replacement, none, false, none⟩], none⟩
  ⟨[set ⟨"src/a.rs"⟩ "first" "one" "two", set ⟨"src/b.rs"⟩ "second" "three" "four"]⟩

/-- The definition is accepted, but the second set is listed with the rules of the first. -/
theorem sharedName_not_faithful :
    ∃ c, Catalog.ofDefinition sharedName = .ok c ∧ ¬ c.Faithful := by
  have hids : (Catalog.ofDefinition sharedName).toOption.map
      (fun c => c.sets.map fun s => (s.name, s.rules.map Rule.id)) =
        some [("fixes", ["first"]), ("fixes", ["second"])] := by
    decide +kernel
  cases hc : Catalog.ofDefinition sharedName with
  | error fault =>
    rw [hc] at hids
    cases hids
  | ok c =>
    refine ⟨c, rfl, fun hfaithful => ?_⟩
    rw [hc] at hids
    obtain ⟨s, rest, hsets, hs, hrest⟩ := List.map_eq_cons_iff.mp (Option.some.inj hids)
    obtain ⟨s', rest', rfl, hs', -⟩ := List.map_eq_cons_iff.mp hrest
    have hrules := (c.listing_faithful_iff (.ofDefinition hc)).2.2.2.1.mp hfaithful
      s (by simp [hsets]) s' (by simp [hsets])
      ((Prod.mk.inj hs).1.trans (Prod.mk.inj hs').1.symm)
    have hids' := (Prod.mk.inj hs).2.symm.trans (hrules ▸ (Prod.mk.inj hs').2)
    simp at hids'

end Amend
