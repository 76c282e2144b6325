import Amend.Rule.FieldAccess

/-!
# Accessors

The replacement text for an accessor is made in three steps: dollar signs are doubled, the place of
the receiver becomes a reference to it, and the place of the field becomes its name. What is made of
it for a match is the accessor with both places filled in at once (`FieldSpec.expand_replacement`).
So every other character of the accessor stands for itself, dollar signs and braces included, and
what is filled in is not read again.
-/

set_option autoImplicit false

namespace Amend

section
variable {old new w cs : List Char} {c d e : Char}

/-! ## Replacing all occurrences -/

theorem replaceAll_cons (h : old.isPrefixOf (c :: cs) = false) :
    replaceAll old new (c :: cs) = c :: replaceAll old new cs := by
  rw [replaceAll, h, Bool.and_false, if_neg Bool.false_ne_true]

theorem isPrefixOf_cons_of_head?_ne (hold : old.head? = some d) (h : c ≠ d) :
    old.isPrefixOf (c :: cs) = false := by
  obtain ⟨ds, rfl⟩ := List.head?_eq_some_iff.mp hold
  rw [List.isPrefixOf, beq_false_of_ne h.symm, Bool.false_and]

theorem replaceAll_append (hold : old.head? = some d) (h : d ∉ w) :
    replaceAll old new (w ++ cs) = w ++ replaceAll old new cs := by
  induction w with
  | nil => rfl
  | cons c w ih =>
    obtain ⟨hne, hw⟩ := List.ne_and_not_mem_of_not_mem_cons h
    rw [List.cons_append, replaceAll_cons (isPrefixOf_cons_of_head?_ne hold hne.symm), ih hw]
    rfl

theorem replaceAll_self (hold : old.head? = some d) :
    replaceAll old new (old ++ cs) = new ++ replaceAll old new cs := by
  obtain ⟨ds, rfl⟩ := List.head?_eq_some_iff.mp hold
  rw [List.cons_append, replaceAll, if_pos]
  · simp
  · simp [List.isPrefixOf_iff_prefix]

theorem drop_of_append_eq {rest : List Char} (hold : old.head? = some d)
    (h : old ++ rest = c :: cs) : cs.drop (old.length - 1) = rest := by
  obtain ⟨ds, rfl⟩ := List.head?_eq_some_iff.mp hold
  obtain ⟨-, rfl⟩ := List.cons.inj h
  exact List.drop_left

/-- Replacing brings about no beginning of a text, and takes none away, that has neither the first
character of what is replaced nor that of what is put in its place. -/
theorem isPrefixOf_replaceAll (hold : old.head? = some d) (hnew : new.head? = some e) (hd : d ∉ w)
    (he : e ∉ w) : w.isPrefixOf (replaceAll old new cs) = w.isPrefixOf cs := by
  induction w generalizing cs with
  | nil => rfl
  | cons x w ih =>
    obtain ⟨hxd, hd⟩ := List.ne_and_not_mem_of_not_mem_cons hd
    obtain ⟨hxe, he⟩ := List.ne_and_not_mem_of_not_mem_cons he
    cases cs with
    | nil => rw [replaceAll]
    | cons c cs =>
      by_cases hprefix : old.isPrefixOf (c :: cs) = true
      · obtain ⟨rest, hrest⟩ := List.isPrefixOf_iff_prefix.mp hprefix
        obtain ⟨es, rfl⟩ := List.head?_eq_some_iff.mp hnew
        have hc : c ≠ x := by
          obtain ⟨ds, rfl⟩ := List.head?_eq_some_iff.mp hold
          obtain ⟨rfl, -⟩ := List.cons.inj hrest
          exact hxd
        rw [isPrefixOf_cons_of_head?_ne (d := x) rfl hc, ← hrest, replaceAll_self hold,
          List.cons_append, isPrefixOf_cons_of_head?_ne (d := x) rfl hxe]
      · rw [replaceAll_cons (Bool.not_eq_true _ ▸ hprefix), List.isPrefixOf, List.isPrefixOf,
          ih hd he]

theorem isPrefixOf_cons_replaceAll (hold : old.head? = some d) (hnew : new.head? = some e)
    (hd : d ∉ w.tail) (he : e ∉ w.tail) :
    w.isPrefixOf (c :: replaceAll old new cs) = w.isPrefixOf (c :: cs) := by
  cases w with
  | nil => rfl
  | cons x w =>
    rw [List.tail_cons] at hd he
    rw [List.isPrefixOf, List.isPrefixOf, isPrefixOf_replaceAll hold hnew hd he]

/-! ## Reading replacement texts -/

namespace Replacement

theorem read_cons_of_ne (h : c ≠ '$') (cs : List Char) : read (c :: cs) = .char c :: read cs := by
  rw [read]
  all_goals
    intros
    simp_all

theorem read_append (h : '$' ∉ w) (cs : List Char) :
    read (w ++ cs) = w.map .char ++ read cs := by
  induction w with
  | nil => rfl
  | cons c w ih =>
    obtain ⟨hne, hw⟩ := List.ne_and_not_mem_of_not_mem_cons h
    rw [List.cons_append, read_cons_of_ne hne.symm, ih hw]
    rfl

theorem read_dollars (cs : List Char) : read ('$' :: '$' :: cs) = .char '$' :: read cs := by
  rw [read]

theorem read_braced (h : '}' ∉ w) (cs : List Char) :
    read ('$' :: '{' :: (w ++ '}' :: cs)) = reference w :: read cs := by
  have hw : ∀ c ∈ w, (c != '}') = true := fun c hc => bne_iff_ne.mpr fun heq => h (heq ▸ hc)
  have hdrop : (w ++ '}' :: cs).dropWhile (· != '}') = '}' :: cs := by
    rw [List.dropWhile_append_of_pos hw]
    rfl
  have htake : (w ++ '}' :: cs).takeWhile (· != '}') = w := by
    rw [List.takeWhile_append_of_pos hw]
    exact List.append_nil w
  rw [read]
  split
  · next heq => rw [hdrop] at heq; cases heq
  · next heq =>
    rw [hdrop] at heq
    obtain ⟨-, rfl⟩ := List.cons.inj heq
    rw [htake]

theorem flatMap_ofPart_char (p : Pattern) (m : Match) (text w : List Char) :
    (w.map ReplacementPart.char).flatMap (ofPart p m text) = w := by
  induction w with
  | nil => rfl
  | cons c w ih =>
    rw [List.map_cons, List.flatMap_cons, ih]
    rfl

theorem expand_plain {replacement : String} (h : '$' ∉ replacement.toList) (p : Pattern) (m : Match)
    (text : List Char) : expand p m text replacement = replacement.toList := by
  have hread := read_append h []
  rw [List.append_nil, read, List.append_nil] at hread
  rw [expand, hread, flatMap_ofPart_char]

/-- A text around a reference to the first group is put around what the group holds. -/
theorem expand_around {v : List Char} {replacement : String}
    (h : replacement.toList = w ++ '$' :: '{' :: '1' :: '}' :: v) (hw : '$' ∉ w) (hv : '$' ∉ v)
    (p : Pattern) (m : Match) (text : List Char) :
    expand p m text replacement = w ++ (m.textOf text 1 ++ v) := by
  have hone : read ('$' :: '{' :: '1' :: '}' :: v) = .group 1 :: read v :=
    read_braced (w := ['1']) (by decide) v
  have hread := read_append hv []
  rw [List.append_nil, read, List.append_nil] at hread
  rw [expand, h, read_append hw, hone, hread, List.flatMap_append, List.flatMap_cons,
    flatMap_ofPart_char, flatMap_ofPart_char]
  rfl

end Replacement

end

namespace FieldSpec

open Replacement (ofPart)

/-! ## Filling in the places -/

/-- An accessor with the receiver and the name of the field in their places. All places are filled
in at once, and every other character stands for itself. -/
def fill (receiver name : List Char) : List Char → List Char
  | [] => []
  | c :: cs =>
    if receiverMark.toList.isPrefixOf (c :: cs) then
      receiver ++ fill receiver name (cs.drop (receiverMark.toList.length - 1))
    else if fieldMark.toList.isPrefixOf (c :: cs) then
      name ++ fill receiver name (cs.drop (fieldMark.toList.length - 1))
    else c :: fill receiver name cs
termination_by cs => cs.length
decreasing_by all_goals grind

/-- The replacement text for what follows in an accessor. -/
def template (name accessor : List Char) : List Char :=
  replaceAll fieldMark.toList name (replaceAll receiverMark.toList ('$' :: receiverMark.toList)
    (replaceAll ['$'] ['$', '$'] accessor))

theorem toList_replacement (accessor name : String) :
    (replacement accessor name).toList = template name.toList accessor.toList :=
  String.toList_ofList

section
variable {w name cs : List Char} {c : Char}

theorem fill_receiver (w name cs : List Char) :
    fill w name (receiverMark.toList ++ cs) = w ++ fill w name cs := by
  have hprefix : receiverMark.toList.isPrefixOf (receiverMark.toList ++ cs) = true :=
    List.isPrefixOf_iff_prefix.mpr (List.prefix_append ..)
  have hcons : receiverMark.toList ++ cs = '{' :: ("receiver\x7d".toList ++ cs) := rfl
  rw [hcons, fill, ← hcons, if_pos hprefix, drop_of_append_eq rfl hcons]

theorem fill_field (w name cs : List Char) :
    fill w name (fieldMark.toList ++ cs) = name ++ fill w name cs := by
  have hprefix : fieldMark.toList.isPrefixOf (fieldMark.toList ++ cs) = true :=
    List.isPrefixOf_iff_prefix.mpr (List.prefix_append ..)
  have hcons : fieldMark.toList ++ cs = '{' :: ("field\x7d".toList ++ cs) := rfl
  have hreceiver : receiverMark.toList.isPrefixOf (fieldMark.toList ++ cs) = false := rfl
  rw [hcons, fill, ← hcons, if_neg (Bool.not_eq_true _ ▸ hreceiver), if_pos hprefix,
    drop_of_append_eq rfl hcons]

theorem fill_append {v : List Char} (h : '{' ∉ v) :
    fill w name (v ++ cs) = v ++ fill w name cs := by
  induction v with
  | nil => rfl
  | cons c v ih =>
    obtain ⟨hne, hv⟩ := List.ne_and_not_mem_of_not_mem_cons h
    rw [List.cons_append, fill, isPrefixOf_cons_of_head?_ne (d := '{') rfl hne.symm,
      isPrefixOf_cons_of_head?_ne (d := '{') rfl hne.symm, if_neg Bool.false_ne_true,
      if_neg Bool.false_ne_true, ih hv]
    rfl

/-- The places with their own marks filled in make up the accessor. -/
theorem fill_marks (cs : List Char) : fill receiverMark.toList fieldMark.toList cs = cs := by
  fun_induction fill with
  | case1 => rfl
  | case2 c cs hreceiver ih =>
    obtain ⟨rest, hrest⟩ := List.isPrefixOf_iff_prefix.mp hreceiver
    rw [ih, drop_of_append_eq rfl hrest, hrest]
  | case3 c cs _ hfield ih =>
    obtain ⟨rest, hrest⟩ := List.isPrefixOf_iff_prefix.mp hfield
    rw [ih, drop_of_append_eq rfl hrest, hrest]
  | case4 c cs _ _ ih => rw [ih]

/-! ## The replacement text -/

theorem template_nil (name : List Char) : template name [] = [] := by
  simp only [template, replaceAll]

theorem template_dollar (name cs : List Char) :
    template name ('$' :: cs) = '$' :: '$' :: template name cs := by
  have hdouble : replaceAll ['$'] ['$', '$'] ('$' :: cs) =
      ['$', '$'] ++ replaceAll ['$'] ['$', '$'] cs :=
    replaceAll_self rfl
  have hkeep : '{' ∉ ['$', '$'] := by decide
  rw [template, hdouble, replaceAll_append rfl hkeep, replaceAll_append rfl hkeep]
  rfl

theorem template_receiver (name cs : List Char) :
    template name (receiverMark.toList ++ cs) =
      '$' :: (receiverMark.toList ++ template name cs) := by
  have hfield : ∀ rest, replaceAll fieldMark.toList name ('$' :: (receiverMark.toList ++ rest)) =
      '$' :: (receiverMark.toList ++ replaceAll fieldMark.toList name rest) := by
    intro rest
    have htail : replaceAll fieldMark.toList name ("receiver\x7d".toList ++ rest) =
        "receiver\x7d".toList ++ replaceAll fieldMark.toList name rest :=
      replaceAll_append rfl (by decide)
    rw [replaceAll_cons rfl]
    exact congrArg ('$' :: ·) ((replaceAll_cons rfl).trans (congrArg ('{' :: ·) htail))
  rw [template, replaceAll_append rfl (by decide), replaceAll_self rfl]
  exact hfield _

theorem template_field (name cs : List Char) :
    template name (fieldMark.toList ++ cs) = name ++ template name cs := by
  have hreceiver : ∀ rest, replaceAll receiverMark.toList ('$' :: receiverMark.toList)
      (fieldMark.toList ++ rest) = fieldMark.toList ++
        replaceAll receiverMark.toList ('$' :: receiverMark.toList) rest := by
    intro rest
    have htail : replaceAll receiverMark.toList ('$' :: receiverMark.toList)
        ("field\x7d".toList ++ rest) = "field\x7d".toList ++
          replaceAll receiverMark.toList ('$' :: receiverMark.toList) rest :=
      replaceAll_append rfl (by decide)
    exact (replaceAll_cons rfl).trans (congrArg ('{' :: ·) htail)
  rw [template, replaceAll_append rfl (by decide), hreceiver, replaceAll_self rfl]
  rfl

/-- The steps before the last one neither make a mark nor break one up. -/
theorem template_cons (hdollar : c ≠ '$')
    (hreceiver : receiverMark.toList.isPrefixOf (c :: cs) = false)
    (hfield : fieldMark.toList.isPrefixOf (c :: cs) = false) :
    template name (c :: cs) = c :: template name cs := by
  have hreceiver' : receiverMark.toList.isPrefixOf (c :: replaceAll ['$'] ['$', '$'] cs) =
      false := by
    rwa [isPrefixOf_cons_replaceAll rfl rfl (by decide) (by decide)]
  have hfield' : fieldMark.toList.isPrefixOf (c :: replaceAll receiverMark.toList
      ('$' :: receiverMark.toList) (replaceAll ['$'] ['$', '$'] cs)) = false := by
    rwa [isPrefixOf_cons_replaceAll rfl rfl (by decide) (by decide),
      isPrefixOf_cons_replaceAll rfl rfl (by decide) (by decide)]
  rw [template, replaceAll_cons (isPrefixOf_cons_of_head?_ne rfl hdollar),
    replaceAll_cons hreceiver', replaceAll_cons hfield']
  rfl

theorem read_receiverMark (cs : List Char) :
    Replacement.read ('$' :: (receiverMark.toList ++ cs)) =
      .named "receiver" :: Replacement.read cs :=
  Replacement.read_braced (w := "receiver".toList) (by decide) cs

/-- What is read off the replacement text for a match is the accessor with its places filled in. -/
theorem read_template {p : Pattern} {m : Match} {text : List Char} (hname : '$' ∉ name)
    (cs : List Char) : (Replacement.read (template name cs)).flatMap (ofPart p m text) =
      fill (p.textNamed m text "receiver") name cs := by
  fun_induction fill with
  | case1 => rw [template_nil, Replacement.read]; rfl
  | case2 c cs hreceiver ih =>
    obtain ⟨rest, hrest⟩ := List.isPrefixOf_iff_prefix.mp hreceiver
    rw [← ih, drop_of_append_eq rfl hrest, ← hrest, template_receiver, read_receiverMark,
      List.flatMap_cons]
    rfl
  | case3 c cs _ hfield ih =>
    obtain ⟨rest, hrest⟩ := List.isPrefixOf_iff_prefix.mp hfield
    rw [← ih, drop_of_append_eq rfl hrest, ← hrest, template_field, Replacement.read_append hname,
      List.flatMap_append, Replacement.flatMap_ofPart_char]
  | case4 c cs hreceiver hfield ih =>
    rw [← ih]
    by_cases hdollar : c = '$'
    · subst hdollar
      rw [template_dollar, Replacement.read_dollars, List.flatMap_cons]
      rfl
    · rw [Bool.not_eq_true] at hreceiver hfield
      rw [template_cons hdollar hreceiver hfield, Replacement.read_cons_of_ne hdollar,
        List.flatMap_cons]
      rfl

theorem expand_replacement {p : Pattern} {name : String} (hname : '$' ∉ name.toList)
    (accessor : String) (m : Match) (text : List Char) :
    Replacement.expand p m text (replacement accessor name) =
      fill (p.textNamed m text "receiver") name.toList accessor.toList := by
  unfold Replacement.expand
  rw [toList_replacement]
  exact read_template hname accessor.toList

end

end FieldSpec

end Amend
