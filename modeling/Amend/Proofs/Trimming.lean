import Mathlib.Logic.Relation
import Amend.Proofs.Rule.LineRules
import Amend.Proofs.Words

/-!
# Texts that are trimmed

Lines with one import, and items of lists, are taken out of a text (`Trim`). What is looked for is
there afterwards only if it was there before (`Trim.lacks`, `Trim.not_listed`, `Trim.imports`), as
long as the text is tidy: no word is put together out of pieces that stand beside items (`Tidy`).
A tidy text stays tidy (`Tidy.trim`).
-/

set_option autoImplicit false

namespace Amend

variable {text text' u v w x y z l m p e a b rest : List Char} {d : Char}

/-! ## Imports -/

def isPathChar (c : Char) : Bool :=
  Unicode.isWord c || c == ':'

def useWord : List Char := ['u', 's', 'e', ' ']

/-- A line that imports a path. -/
def ImportLine (p l : List Char) : Prop :=
  (∀ c ∈ p, isPathChar c = true) ∧ ∃ e, LineEnd e ∧ l = useWord ++ (p ++ ';' :: e)

/-- The text has a line that imports a path of this kind. -/
def Imports (kind : List Char → Prop) (text : List Char) : Prop :=
  ∃ x p l y, atLineStart x.getLast? = true ∧ kind p ∧ ImportLine p l ∧ text = x ++ (l ++ y)

theorem notMem_of_isPathChar (hp : ∀ c ∈ p, isPathChar c = true) (hd : isPathChar d = false) :
    d ∉ p := by
  intro hmem
  rw [hp d hmem] at hd
  cases hd

theorem LineEnd.notMem (h : LineEnd e) (hn : d ≠ '\n') (hr : d ≠ '\r') : d ∉ e := by
  rcases h with rfl | rfl <;> simp [hn, hr]

theorem ImportLine.isLine (h : ImportLine p l) : IsLine l := by
  obtain ⟨hp, e, he, rfl⟩ := h
  have hpath : '\n' ∉ p := notMem_of_isPathChar hp (by decide)
  rcases he with rfl | rfl
  · exact ⟨useWord ++ (p ++ [';']), by simp [useWord, hpath], by simp⟩
  · exact ⟨useWord ++ (p ++ [';', '\r']), by simp [useWord, hpath], by simp⟩

theorem ImportLine.brace_notMem (h : ImportLine p l) : '}' ∉ l := by
  obtain ⟨hp, e, he, rfl⟩ := h
  have hpath : '}' ∉ p := notMem_of_isPathChar hp (by decide)
  have hend : '}' ∉ e := he.notMem (by decide) (by decide)
  simp [useWord, hpath, hend]

theorem mem_of_atLineStart (h : atLineStart (x ++ y).getLast? = true) (hy : y ≠ []) : '\n' ∈ y := by
  rcases List.eq_nil_or_concat y with rfl | ⟨y, c, rfl⟩
  · exact absurd rfl hy
  · have hc : (c == '\n') = true := by simpa [atLineStart] using h
    simp [eq_of_beq hc]

/-! ## What is taken out -/

/-- No word goes on here. -/
def NoWord (rest : List Char) : Prop :=
  rest.head?.any Unicode.isWord = false

/-- The word begins with the comma before an item, and does not end the list. -/
def Item (w : List Char) : Prop :=
  w.head? = some ',' ∧ '}' ∉ w

instance : Decidable (Item w) :=
  inferInstanceAs (Decidable (_ ∧ _))

/-- Items with the comma before them that are taken out wherever they stand, an item that is taken
out of lists that the word `opener` opens and a brace closes, and the paths whose imports are taken
out. -/
structure Leftovers where
  items : List (List Char)
  opener : List Char
  listed : List Char
  paths : Language Char
  word : ∀ w ∈ opener :: listed :: items, w ≠ [] ∧ '\n' ∉ w ∧ '}' ∉ w
  comma : ∀ w ∈ listed :: items, w.head? = some ','

namespace Leftovers

variable (L : Leftovers)

def words : List (List Char) :=
  L.opener :: L.listed :: L.items

theorem opener_mem_words : L.opener ∈ L.words :=
  List.mem_cons_self

theorem listed_mem_words : L.listed ∈ L.words :=
  List.mem_cons_of_mem _ List.mem_cons_self

theorem mem_words_of_mem_items (h : w ∈ L.items) : w ∈ L.words :=
  List.mem_cons_of_mem _ (List.mem_cons_of_mem _ h)

theorem item_of_mem (h : w ∈ L.listed :: L.items) : Item w :=
  ⟨L.comma w h, (L.word w (List.mem_cons_of_mem _ h)).2.2⟩

/-- The text goes on like this after an item that is to be taken out. -/
def Follows (text rest : List Char) : Prop :=
  (∃ w ∈ L.items, ∃ u, text = u ++ (w ++ rest)) ∨
    ∃ u s, text = u ++ (L.opener ++ (s ++ (L.listed ++ rest))) ∧ '}' ∉ s ∧ NoWord rest

/-- Pieces of the text make this up, each before a comma, and all but the first after an item. -/
inductive Begun (text : List Char) : List Char → Prop
  | comma {u a v : List Char} : text = u ++ (a ++ ',' :: v) → Begun text a
  | more {a c v : List Char} : Begun text a → L.Follows text (c ++ ',' :: v) → Begun text (a ++ c)

/-- The parts of a word, or of the line of an import, which may also be the line and nothing before
it. -/
def Parts (a b : List Char) : Prop :=
  b ≠ [] ∧ (a ≠ [] ∧ a ++ b ∈ L.words ∨ ∃ p ∈ L.paths, ImportLine p (a ++ b))

variable {L}

theorem Parts.notMem (h : L.Parts a b) : '\n' ∉ a ∧ '\n' ∉ b.dropLast := by
  obtain ⟨hb, ⟨-, hword⟩ | ⟨p, -, hline⟩⟩ := h
  · obtain ⟨-, hbreak, -⟩ := L.word _ hword
    rw [List.mem_append, not_or] at hbreak
    exact ⟨hbreak.1, fun hmem => hbreak.2 (List.mem_of_mem_dropLast hmem)⟩
  · obtain ⟨k, hk, heq⟩ := hline.isLine
    have hdrop : a ++ b.dropLast = k := by
      rw [← List.dropLast_append_of_ne_nil hb, heq, List.dropLast_concat]
    rw [← hdrop, List.mem_append, not_or] at hk
    exact hk

theorem Parts.brace_notMem (h : L.Parts a b) : '}' ∉ b := by
  have hall : '}' ∉ a ++ b := by
    obtain ⟨-, ⟨-, hword⟩ | ⟨p, -, hline⟩⟩ := h
    · exact (L.word _ hword).2.2
    · exact hline.brace_notMem
  exact fun hmem => hall (List.mem_append_right a hmem)

end Leftovers

/-- The word `w` is in a list that the word `o` opens and a brace closes. -/
def Listed (o w text : List Char) : Prop :=
  ∃ u s v, text = u ++ (o ++ (s ++ (w ++ v))) ∧ '}' ∉ s ∧ NoWord v

/-- A line with an import or an item is taken out. -/
inductive Trim (L : Leftovers) : List Char → List Char → Prop
  | line {x p l y : List Char} : atLineStart x.getLast? = true → ImportLine p l →
      Trim L (x ++ (l ++ y)) (x ++ y)
  | item {x m y : List Char} : Item m → L.Follows (x ++ (m ++ y)) y →
      Trim L (x ++ (m ++ y)) (x ++ y)

/-- No word and no import is put together out of pieces that stand beside items, and no list has its
item twice. -/
structure Tidy (L : Leftovers) (text : List Char) : Prop where
  apart : ∀ a b v, L.Parts a b → L.Begun text a → ¬ L.Follows text (b ++ v)
  once : ∀ u s v, text = u ++ (L.opener ++ (s ++ (L.listed ++ v))) → '}' ∉ s → NoWord v →
    ∀ s' v', v = s' ++ (L.listed ++ v') → '}' ∉ s' → ¬ NoWord v'

variable {L : Leftovers} {kind : List Char → Prop}

/-- Where the item is in no list, and all that is taken out ends its list, a text is tidy. -/
theorem Tidy.of_closing (hlisted : ¬ Listed L.opener L.listed text)
    (hitems : ∀ w ∈ L.items, ∀ u v, text = u ++ (w ++ v) → v.head? = some '}') : Tidy L text where
  apart a b v hparts _ hfollows := by
    rcases hfollows with ⟨w, hw, u, heq⟩ | ⟨u, s, heq, hs, hrest⟩
    · have hhead := hitems w hw u _ heq
      rw [List.head?_append_of_ne_nil _ hparts.1] at hhead
      exact hparts.brace_notMem (List.mem_of_mem_head? hhead)
    · exact hlisted ⟨u, s, _, heq, hs, hrest⟩
  once u s v heq hs hv := absurd ⟨u, s, v, heq, hs, hv⟩ hlisted

/-! ## Where something was taken out -/

/-- Between these parts `m` was taken out, and no word is put together there: a line starts, or no
word has its parts on both sides. -/
inductive Gap (L : Leftovers) (m : List Char) : List Char → List Char → Prop
  | line {x y : List Char} : x.getLast? = some '\n' → Gap L m x y
  | item {x y : List Char} : m.head? = some ',' →
      (∀ a b, L.Parts a b → a <:+ x → ¬ b <+: y) → Gap L m x y

theorem Tidy.gap (h : Tidy L (x ++ (m ++ y))) (hm : Item m)
    (hfollows : L.Follows (x ++ (m ++ y)) y) : Gap L m x y := by
  obtain ⟨m, rfl⟩ := List.head?_eq_some_iff.mp hm.1
  refine .item rfl ?_
  rintro a b hparts ⟨u, rfl⟩ ⟨v, rfl⟩
  exact h.apart a b v hparts (.comma (u := u) (v := m ++ (b ++ v)) (by simp)) hfollows

namespace Gap

theorem noWord (h : Gap L m x y) (hno : NoWord (x ++ y)) : NoWord (x ++ (m ++ y)) := by
  rcases x with _ | ⟨c, x⟩
  · cases h with
    | line hlast => cases hlast
    | item hhead =>
      obtain ⟨m, rfl⟩ := List.head?_eq_some_iff.mp hhead
      exact (rfl : Unicode.isWord ',' = false)
  · exact hno

/-- What stands at a gap is before it, after it, or has parts on both sides of a missing item. -/
theorem split (h : x = [] ∨ Gap L m x y) (hz : '\n' ∉ z.dropLast)
    (heq : x ++ y = u ++ (z ++ v)) :
    (∃ r, x = u ++ (z ++ r) ∧ v = r ++ y) ∨ (∃ r, u = x ++ r ∧ y = r ++ (z ++ v)) ∨
      ∃ a b, z = a ++ b ∧ b ≠ [] ∧ x = u ++ a ∧ y = b ++ v ∧ m.head? = some ',' ∧
        ∀ a b, L.Parts a b → a <:+ x → ¬ b <+: y := by
  rcases append_cases heq with ⟨r, rfl, hr⟩ | ⟨a, rfl, ha, hne⟩
  · exact .inr (.inl ⟨r, rfl, hr⟩)
  · rcases append_cases ha with ⟨r, rfl, hr⟩ | ⟨b, rfl, hb, hne'⟩
    · exact .inl ⟨r, rfl, hr⟩
    · rcases h with hnil | hline | ⟨hhead, hapart⟩
      · exact absurd (List.append_eq_nil_iff.mp hnil).2 hne
      · rw [List.getLast?_append_of_ne_nil _ hne] at hline
        rw [List.dropLast_append_of_ne_nil hne', List.mem_append, not_or] at hz
        exact absurd (List.mem_of_getLast? hline) hz.1
      · exact .inr (.inr ⟨a, b, rfl, hne', rfl, hb, hhead, hapart⟩)

/-- A word stands before a gap or after it. -/
theorem cases (h : x = [] ∨ Gap L m x y) (hw : w ∈ L.words) (heq : x ++ y = u ++ (w ++ v)) :
    (∃ r, x = u ++ (w ++ r) ∧ v = r ++ y ∧ Gap L m r y) ∨ ∃ r, u = x ++ r ∧ y = r ++ (w ++ v) := by
  obtain ⟨hne, hbreak, -⟩ := L.word w hw
  have hdrop : '\n' ∉ w.dropLast := fun hmem => hbreak (List.mem_of_mem_dropLast hmem)
  rcases split h hdrop heq with ⟨r, rfl, hv⟩ | hafter | ⟨a, b, rfl, hb, rfl, rfl, -, hapart⟩
  · refine .inl ⟨r, rfl, hv, ?_⟩
    rcases h with hnil | hline | ⟨hhead, hapart⟩
    · simp [hne] at hnil
    · rcases eq_or_ne r [] with rfl | hr
      · rw [List.append_nil, List.getLast?_append_of_ne_nil _ hne] at hline
        exact absurd (List.mem_of_getLast? hline) hbreak
      · rw [← List.append_assoc, List.getLast?_append_of_ne_nil _ hr] at hline
        exact .line hline
    · refine .item hhead fun a b hparts ha => hapart a b hparts ?_
      rw [← List.append_assoc]
      exact ha.trans (List.suffix_append _ r)
  · exact .inr hafter
  · rcases eq_or_ne a [] with rfl | ha
    · exact .inr ⟨[], by simp, by simp⟩
    · exact absurd (List.prefix_append b v)
        (hapart a b ⟨hb, .inl ⟨ha, hw⟩⟩ (List.suffix_append u a))

/-- An item that is in a list was in one before. -/
theorem listed_cases {s : List Char} (h : x = [] ∨ Gap L m x y) (hm : '}' ∉ m)
    (heq : x ++ y = u ++ (L.opener ++ (s ++ (L.listed ++ v)))) (hs : '}' ∉ s) :
    (∃ r, x = u ++ (L.opener ++ (s ++ (L.listed ++ r))) ∧ v = r ++ y ∧ Gap L m r y) ∨
      ∃ u' s', x ++ (m ++ y) = u' ++ (L.opener ++ (s' ++ (L.listed ++ v))) ∧ '}' ∉ s' := by
  rcases cases h L.opener_mem_words heq with ⟨t, rfl, ht, hgap⟩ | ⟨t, rfl, rfl⟩
  · rcases cases (.inr hgap) L.listed_mem_words ht.symm with ⟨r, rfl, rfl, hgap⟩ | ⟨r, rfl, rfl⟩
    · exact .inl ⟨r, rfl, rfl, hgap⟩
    · rw [List.mem_append, not_or] at hs
      exact .inr ⟨u, t ++ (m ++ r), by simp, by simp [hs, hm]⟩
  · exact .inr ⟨x ++ (m ++ t), s, by simp, hs⟩

/-- What follows an item did so before, or the gap is somewhere after that item. -/
theorem follows (h : x = [] ∨ Gap L m x y) (hm : '}' ∉ m) (hrest : L.Follows (x ++ y) rest) :
    L.Follows (x ++ (m ++ y)) rest ∨
      ∃ r, rest = r ++ y ∧ Gap L m r y ∧ L.Follows (x ++ (m ++ y)) (r ++ (m ++ y)) := by
  rcases hrest with ⟨w, hw, u, heq⟩ | ⟨u, s, heq, hs, hno⟩
  · rcases cases h (L.mem_words_of_mem_items hw) heq with ⟨r, rfl, rfl, hgap⟩ | ⟨r, rfl, rfl⟩
    · exact .inr ⟨r, rfl, hgap, .inl ⟨w, hw, u, by simp⟩⟩
    · exact .inl (.inl ⟨w, hw, x ++ (m ++ r), by simp⟩)
  · rcases listed_cases h hm heq hs with ⟨r, rfl, rfl, hgap⟩ | ⟨u', s', heq', hs'⟩
    · exact .inr ⟨r, rfl, hgap, .inr ⟨u, s, by simp, hs, hgap.noWord hno⟩⟩
    · exact .inl (.inr ⟨u', s', heq', hs', hno⟩)

/-- A piece that follows an item did so before, or its parts each followed one. -/
theorem pieces (h : x = [] ∨ Gap L m x y) (hm : '}' ∉ m)
    (hy : m.head? = some ',' → L.Follows (x ++ (m ++ y)) y) (hz : '\n' ∉ z.dropLast)
    (hrest : L.Follows (x ++ y) (z ++ v)) :
    (∃ v', L.Follows (x ++ (m ++ y)) (z ++ v')) ∨ ∃ a b v', z = a ++ b ∧ b ≠ [] ∧
      L.Follows (x ++ (m ++ y)) (a ++ ',' :: v') ∧ L.Follows (x ++ (m ++ y)) (b ++ v) := by
  rcases follows h hm hrest with hbefore | ⟨r, heq, hgap, hr⟩
  · exact .inl ⟨v, hbefore⟩
  · rcases split (u := []) (.inr hgap) hz heq.symm with
      ⟨t, rfl, -⟩ | ⟨t, ht, rfl⟩ | ⟨a, b, rfl, hb, ha, rfl, hhead, -⟩
    · exact .inl ⟨t ++ (m ++ y), by simpa using hr⟩
    · obtain ⟨rfl, rfl⟩ := List.append_eq_nil_iff.mp ht.symm
      cases hgap with
      | line hlast => cases hlast
      | item hhead => exact .inl ⟨v, hy hhead⟩
    · obtain ⟨m, rfl⟩ := List.head?_eq_some_iff.mp hhead
      rw [ha] at hr
      exact .inr ⟨a, b, m ++ (b ++ v), rfl, hb, hr, hy rfl⟩

/-- What is made up of pieces was so before. -/
theorem begun (h : x = [] ∨ Gap L m x y) (hm : '}' ∉ m)
    (hy : m.head? = some ',' → L.Follows (x ++ (m ++ y)) y) (ha : '\n' ∉ a)
    (hbegun : L.Begun (x ++ y) a) : L.Begun (x ++ (m ++ y)) a := by
  -- the comma after a piece goes with the last of its parts
  have hsplit : ∀ {a b c : List Char}, c ++ [','] = a ++ b → b ≠ [] →
      ∃ b', b = b' ++ [','] ∧ c = a ++ b' := by
    intro a b c heq hb
    obtain ⟨b, d, rfl⟩ := (List.eq_nil_or_concat b).resolve_left hb
    rw [List.concat_eq_append, ← List.append_assoc] at heq
    obtain ⟨rfl, hd⟩ := List.append_inj' heq rfl
    exact ⟨b, by simpa using hd.symm, rfl⟩
  induction hbegun with
  | @comma u a v heq =>
    have hz : '\n' ∉ (a ++ [',']).dropLast := by rwa [List.dropLast_concat]
    rcases split (z := a ++ [',']) (v := v) h hz (by simpa using heq) with
      ⟨r, rfl, -⟩ | ⟨r, rfl, rfl⟩ | ⟨a₁, b, hab, hb, rfl, rfl, hhead, -⟩
    · exact .comma (u := u) (v := r ++ (m ++ y)) (by simp)
    · exact .comma (u := x ++ (m ++ r)) (v := v) (by simp)
    · obtain ⟨b, rfl, rfl⟩ := hsplit hab hb
      have hlast := hy hhead
      obtain ⟨m, rfl⟩ := List.head?_eq_some_iff.mp hhead
      exact .more (v := v) (.comma (u := u) (v := m ++ ((b ++ [',']) ++ v)) (by simp))
        (by simpa using hlast)
  | @more a c v _ hfollows ih =>
    rw [List.mem_append, not_or] at ha
    have hbegun := ih ha.1
    have hz : '\n' ∉ (c ++ [',']).dropLast := by rw [List.dropLast_concat]; exact ha.2
    rcases pieces (z := c ++ [',']) (v := v) h hm hy hz (by simpa using hfollows) with
      ⟨v', hbefore⟩ | ⟨a₁, b, v', hab, hb, hfirst, hlast⟩
    · exact hbegun.more (by simpa using hbefore)
    · obtain ⟨b, rfl, rfl⟩ := hsplit hab hb
      have hmore := (hbegun.more hfirst).more (v := v) (by simpa using hlast)
      rwa [List.append_assoc] at hmore

end Gap

/-! ## What trimming preserves -/

/-- What was taken out of a tidy text left a gap. -/
theorem Trim.exists_gap (h : Trim L text text') (htidy : Tidy L text) :
    ∃ x m y, text = x ++ (m ++ y) ∧ text' = x ++ y ∧ '}' ∉ m ∧ (x = [] ∨ Gap L m x y) ∧
      (m.head? = some ',' → L.Follows text y) := by
  cases h with
  | @line x p l y hx hl =>
    refine ⟨x, l, y, rfl, rfl, hl.brace_notMem, ?_, fun hhead => ?_⟩
    · rcases List.eq_nil_or_concat x with rfl | ⟨x, c, rfl⟩
      · exact .inl rfl
      · have hc : (c == '\n') = true := by simpa [atLineStart] using hx
        exact .inr (.line (by simp [eq_of_beq hc]))
    · obtain ⟨-, e, -, rfl⟩ := hl
      cases hhead
  | @item x m y hm hy =>
    exact ⟨x, m, y, rfl, rfl, hm.2, .inr (htidy.gap hm hy), fun _ => hy⟩

theorem Tidy.trim (h : Tidy L text) (htrim : Trim L text text') : Tidy L text' := by
  obtain ⟨x, m, y, rfl, rfl, hm, hgap, hy⟩ := htrim.exists_gap h
  refine ⟨fun a b v hparts hbegun hfollows => ?_, fun u s v heq hs hv s' v' hv' hs' hno => ?_⟩
  · obtain ⟨ha, hb⟩ := hparts.notMem
    have hbefore := Gap.begun hgap hm hy ha hbegun
    rcases Gap.pieces hgap hm hy hb hfollows with ⟨v', hlast⟩ | ⟨a', b', v', rfl, hb', hmore, hlast⟩
    · exact h.apart a b v' hparts hbefore hlast
    · -- the first part of what follows the item belongs to what was begun
      have hparts' : L.Parts (a ++ a') b' := by
        obtain ⟨-, ⟨ha, hword⟩ | himport⟩ := hparts
        · exact ⟨hb', .inl ⟨by simp [ha], by simpa using hword⟩⟩
        · exact ⟨hb', .inr (by simpa using himport)⟩
      exact h.apart _ _ _ hparts' (hbefore.more hmore) hlast
  · rcases Gap.listed_cases hgap hm heq hs with ⟨r, rfl, rfl, hr⟩ | ⟨u', t, heq', ht⟩
    · have honce := h.once u s (r ++ (m ++ y)) (by simp) hs (hr.noWord hv)
      rcases Gap.cases (.inr hr) L.listed_mem_words hv' with ⟨t, rfl, rfl, ht⟩ | ⟨t, rfl, rfl⟩
      · exact honce s' (t ++ (m ++ y)) (by simp) hs' (ht.noWord hno)
      · rw [List.mem_append, not_or] at hs'
        exact honce (r ++ (m ++ t)) v' (by simp) (by simp [hs', hm]) hno
    · exact h.once u' t v heq' ht hv s' v' hv' hs' hno

namespace Trim

theorem lacks (h : Trim L text text') (htidy : Tidy L text) (hw : w ∈ L.words)
    (htext : Lacks w text) : Lacks w text' := by
  obtain ⟨x, m, y, rfl, rfl, -, hgap, -⟩ := h.exists_gap htidy
  intro u v heq
  rcases Gap.cases hgap hw heq with ⟨r, rfl, rfl, -⟩ | ⟨r, rfl, rfl⟩
  · exact htext u (r ++ (m ++ y)) (by simp)
  · exact htext (x ++ (m ++ r)) v (by simp)

theorem not_listed (h : Trim L text text') (htidy : Tidy L text)
    (htext : ¬ Listed L.opener L.listed text) : ¬ Listed L.opener L.listed text' := by
  obtain ⟨x, m, y, rfl, rfl, hm, hgap, -⟩ := h.exists_gap htidy
  rintro ⟨u, s, v, heq, hs, hv⟩
  rcases Gap.listed_cases hgap hm heq hs with ⟨r, rfl, rfl, hr⟩ | ⟨u', s', heq', hs'⟩
  · exact htext ⟨u, s, r ++ (m ++ y), by simp, hs, hr.noWord hv⟩
  · exact htext ⟨u', s', v, heq', hs', hv⟩

/-- A line that imports a path was there before. -/
theorem imports (h : Trim L text text') (htidy : Tidy L text) (hkind : ∀ p, kind p → p ∈ L.paths)
    (himports : Imports kind text') : Imports kind text := by
  obtain ⟨x', p, l, y', hx', hp, hl, heq⟩ := himports
  cases h with
  | @line x q l₀ y hx hl₀ =>
    rcases append_cases heq with ⟨s, rfl, rfl⟩ | ⟨s, rfl, hs, hne⟩
    · refine ⟨x ++ (l₀ ++ s), p, l, y', ?_, hp, hl, by simp⟩
      rcases eq_or_ne s [] with rfl | hs
      · simpa using hl₀.isLine.atLineStart x
      · rw [List.getLast?_append_of_ne_nil _ hs] at hx'
        rwa [← List.append_assoc, List.getLast?_append_of_ne_nil _ hs]
    · rcases append_cases hs with ⟨t, rfl, rfl⟩ | ⟨t, rfl, rfl, hne'⟩
      · exact ⟨x', p, l, t ++ (l₀ ++ y), hx', hp, hl, by simp⟩
      · rw [hl.isLine.not_atLineStart hne hne'] at hx
        cases hx
  | @item x m y hm hy =>
    have hgap := htidy.gap hm hy
    have hparts : ∀ {a b : List Char}, l = a ++ b → b ≠ [] → L.Parts a b := fun hab hb =>
      ⟨hb, .inr ⟨p, hkind p hp, hab ▸ hl⟩⟩
    have hbreak : '\n' ∉ l.dropLast := (hparts (List.nil_append l).symm hl.isLine.ne_nil).notMem.2
    rcases Gap.split (.inr hgap) hbreak heq with
      ⟨r, rfl, rfl⟩ | ⟨r, rfl, rfl⟩ | ⟨a, b, hab, hb, rfl, rfl, -, hapart⟩
    · exact ⟨x', p, l, r ++ (m ++ y), hx', hp, hl, by simp⟩
    · rcases eq_or_ne r [] with rfl | hr
      · -- an import right after an item
        obtain ⟨m, rfl⟩ := List.head?_eq_some_iff.mp hm.1
        have hafter := htidy.apart [] l y' (hparts (List.nil_append l).symm hl.isLine.ne_nil)
          (.comma (u := x) (v := m ++ (l ++ y')) (by simp))
        exact absurd hy hafter
      · refine ⟨x ++ (m ++ r), p, l, y', ?_, hp, hl, by simp⟩
        rw [List.getLast?_append_of_ne_nil _ hr] at hx'
        rwa [← List.append_assoc, List.getLast?_append_of_ne_nil _ hr]
    · exact absurd (List.prefix_append b y')
        (hapart a b (hparts hab hb) (List.suffix_append x' a))

end Trim

/-! ## Runs -/

/-- Lines and items are taken out one after the other. -/
def Trims (L : Leftovers) : List Char → List Char → Prop :=
  Relation.ReflTransGen (Trim L)

namespace Trims

theorem refl (text : List Char) : Trims L text text :=
  Relation.ReflTransGen.refl

theorem trim {text'' : List Char} (h : Trims L text text') (hstep : Trim L text' text'') :
    Trims L text text'' :=
  Relation.ReflTransGen.tail h hstep

theorem trans {text'' : List Char} (h : Trims L text text') (h' : Trims L text' text'') :
    Trims L text text'' :=
  Relation.ReflTransGen.trans h h'

theorem tidy (h : Trims L text text') (htidy : Tidy L text) : Tidy L text' := by
  induction h with
  | refl => exact htidy
  | tail _ htrim ih => exact ih.trim htrim

theorem preserves {P : List Char → Prop} (h : Trims L text text') (htidy : Tidy L text)
    (hstep : ∀ t t', Trim L t t' → Tidy L t → P t → P t') (htext : P text) : P text' := by
  induction h with
  | refl => exact htext
  | tail htrims htrim ih => exact hstep _ _ htrim (tidy htrims htidy) ih

theorem lacks (h : Trims L text text') (htidy : Tidy L text) (hw : w ∈ L.words)
    (htext : Lacks w text) : Lacks w text' :=
  h.preserves htidy (fun _ _ htrim hmid => htrim.lacks hmid hw) htext

theorem not_listed (h : Trims L text text') (htidy : Tidy L text)
    (htext : ¬ Listed L.opener L.listed text) : ¬ Listed L.opener L.listed text' :=
  h.preserves (P := fun text => ¬ Listed L.opener L.listed text) htidy
    (fun _ _ htrim hmid => htrim.not_listed hmid) htext

theorem not_imports (h : Trims L text text') (htidy : Tidy L text)
    (hkind : ∀ p, kind p → p ∈ L.paths) (htext : ¬ Imports kind text) : ¬ Imports kind text' :=
  h.preserves (P := fun text => ¬ Imports kind text) htidy
    (fun _ _ htrim hmid hnone himports => hnone (htrim.imports hmid hkind himports)) htext

end Trims

end Amend
