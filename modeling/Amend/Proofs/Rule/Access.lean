import Amend.Rule.FieldAccess

/-!
# Direct accesses to fields

An access to a field is a receiver, a dot and the name of the field, delimited as words. Replacing
the accesses to one field from left to right (`Accessed`) leaves none of them, and it brings about
no access to any other field (`Accessed.hasAccess`), since the text that is put in their place
holds no access itself and ends in a parenthesis.
-/

set_option autoImplicit false

namespace Amend

/-! ## Words -/

theorem toNat_lt_of_isIdentifierChar {c : Char} (h : isIdentifierChar c = true) :
    c.toNat < 128 := by
  unfold isIdentifierChar Char.isAlphanum Char.isAlpha Char.isUpper Char.isLower Char.isDigit at h
  simp only [Bool.or_eq_true, Bool.and_eq_true, decide_eq_true_eq, beq_iff_eq, ge_iff_le,
    UInt32.le_iff_toNat_le] at h
  rcases h with ((⟨-, h⟩ | ⟨-, h⟩) | ⟨-, h⟩) | rfl
  · exact Nat.lt_of_le_of_lt h (by decide)
  · exact Nat.lt_of_le_of_lt h (by decide)
  · exact Nat.lt_of_le_of_lt h (by decide)
  · decide

theorem isWord_of_isIdentifierChar {c : Char} (h : isIdentifierChar c = true) :
    Unicode.isWord c = true := by
  unfold Unicode.isWord
  rw [if_pos (toNat_lt_of_isIdentifierChar h)]
  exact h

theorem isIdentifierChar_of_isIdentifier {w : List Char} (h : isIdentifier w = true) :
    ∀ c ∈ w, isIdentifierChar c = true := by
  cases w with
  | nil => nofun
  | cons c w =>
    obtain ⟨hc, hw⟩ := Bool.and_eq_true_iff.mp h
    intro x hx
    rcases List.mem_cons.mp hx with rfl | hx
    · simp only [isIdentifierStart, isIdentifierChar, Bool.or_eq_true, Char.isAlphanum] at hc ⊢
      rcases hc with hc | hc
      · exact .inl (.inl hc)
      · exact .inr hc
    · exact List.all_eq_true.mp hw x hx

theorem ne_nil_of_isIdentifier {w : List Char} (h : isIdentifier w = true) : w ≠ [] := by
  rintro rfl
  cases h

theorem any_isWord_head? {w : List Char} (hw : isIdentifier w = true) (cs : List Char) :
    (w ++ cs).head?.any Unicode.isWord = true := by
  cases w with
  | nil => cases hw
  | cons c w =>
    exact isWord_of_isIdentifierChar (isIdentifierChar_of_isIdentifier hw c List.mem_cons_self)

theorem any_isWord_getLast? {w : List Char} (hw : isIdentifier w = true) (cs : List Char) :
    (cs ++ w).getLast?.any Unicode.isWord = true := by
  obtain ⟨c, hc⟩ := Option.isSome_iff_exists.mp
    (List.getLast?_isSome.mpr (ne_nil_of_isIdentifier hw))
  rw [List.getLast?_append, hc, Option.some_or, Option.any_some]
  exact isWord_of_isIdentifierChar
    (isIdentifierChar_of_isIdentifier hw c (List.mem_of_getLast? hc))

/-- No character of an identifier follows. -/
def EndsRun (cs : List Char) : Prop :=
  cs.head?.any isIdentifierChar = false

theorem endsRun_of_any_isWord {cs : List Char} (h : cs.head?.any Unicode.isWord = false) :
    EndsRun cs := by
  cases cs with
  | nil => rfl
  | cons c cs =>
    rw [EndsRun, ← Bool.not_eq_true]
    intro hc
    rw [List.head?_cons, Option.any_some, isWord_of_isIdentifierChar hc] at h
    cases h

/-- A text begins with one run of identifier characters. -/
theorem run_unique {v w x y : List Char} (hv : ∀ c ∈ v, isIdentifierChar c = true)
    (hw : ∀ c ∈ w, isIdentifierChar c = true) (hx : EndsRun x) (hy : EndsRun y)
    (h : v ++ x = w ++ y) : v = w ∧ x = y := by
  induction v generalizing w with
  | nil =>
    cases w with
    | nil => exact ⟨rfl, h⟩
    | cons c w =>
      obtain rfl : x = _ := h
      rw [EndsRun, List.cons_append, List.head?_cons, Option.any_some,
        hw c List.mem_cons_self] at hx
      cases hx
  | cons c v ih =>
    cases w with
    | nil =>
      obtain rfl : _ = y := h
      rw [EndsRun, List.cons_append, List.head?_cons, Option.any_some,
        hv c List.mem_cons_self] at hy
      cases hy
    | cons d w =>
      obtain ⟨rfl, htail⟩ := List.cons.inj h
      obtain ⟨rfl, rfl⟩ := ih (fun x hx => hv x (List.mem_cons_of_mem _ hx))
        (fun x hx => hw x (List.mem_cons_of_mem _ hx)) htail
      exact ⟨rfl, rfl⟩

namespace FieldSpec

/-! ## Accesses -/

/-- The identifiers that are meant as receivers. -/
def IsReceiver (receiver : Option String) (w : List Char) : Prop :=
  isIdentifier w = true ∧ ∀ r, receiver = some r → w = r.toList

/-- `cs`, which follows the character `before`, begins with an access to `name`: with the receiver
`w`. What follows the access is `rest`. -/
structure Access (receiver : Option String) (name : List Char) (before : Option Char)
    (cs w rest : List Char) : Prop where
  starts : before.any Unicode.isWord = false
  isReceiver : IsReceiver receiver w
  eq : cs = w ++ '.' :: (name ++ rest)
  ends : rest.head?.any Unicode.isWord = false

/-- There is an access to `name` in `cs`, which follows the character `before`. -/
def HasAccess (receiver : Option String) (name : List Char) : Option Char → List Char → Prop
  | _, [] => False
  | before, c :: cs => (∃ w rest, Access receiver name before (c :: cs) w rest) ∨
    HasAccess receiver name (some c) cs

/-- What is put after a receiver in the place of a dot and `name`. -/
def inserted (name : List Char) : List Char :=
  ".try_get(\"".toList ++ (name ++ "\").unwrap_or_default()".toList)

/-- `out` is `cs`, which follows the character `before`, with the accesses to `name` replaced from
left to right. -/
inductive Accessed (receiver : Option String) (name : List Char) :
    Option Char → List Char → List Char → Prop
  | nil (before : Option Char) : Accessed receiver name before [] []
  | skip {before : Option Char} {c : Char} {cs out : List Char} :
    (∀ w rest, ¬ Access receiver name before (c :: cs) w rest) →
    Accessed receiver name (some c) cs out → Accessed receiver name before (c :: cs) (c :: out)
  | access {before : Option Char} {cs w rest out : List Char} :
    Access receiver name before cs w rest → Accessed receiver name name.getLast? rest out →
    Accessed receiver name before cs (w ++ (inserted name ++ out))

variable {receiver : Option String} {f g v w cs out rest : List Char} {before : Option Char}
  {c d : Char}

theorem Access.not_nil (h : Access receiver f before [] w rest) : False := by
  have := h.eq
  simp at this

theorem Access.head (h : Access receiver f before (c :: cs) w rest) :
    isIdentifierChar c = true := by
  obtain ⟨-, ⟨hw, -⟩, heq, -⟩ := h
  cases w with
  | nil => cases hw
  | cons x w =>
    obtain ⟨rfl, -⟩ := List.cons.inj heq
    exact isIdentifierChar_of_isIdentifier hw _ List.mem_cons_self

/-- An access takes a whole run of identifier characters, and a dot and its name follow. -/
theorem Access.run (h : Access receiver g before (v ++ d :: cs) w rest)
    (hv : ∀ c ∈ v, isIdentifierChar c = true) (hd : isIdentifierChar d = false) :
    v = w ∧ d = '.' ∧ cs = g ++ rest := by
  obtain ⟨rfl, htail⟩ := run_unique hv (isIdentifierChar_of_isIdentifier h.isReceiver.1)
    (show EndsRun (d :: cs) from hd) (show EndsRun ('.' :: _) from rfl) h.eq
  obtain ⟨rfl, rfl⟩ := List.cons.inj htail
  exact ⟨rfl, rfl, rfl⟩

/-- The character before the place where `cs` ends. -/
def lastOr (before : Option Char) : List Char → Option Char
  | [] => before
  | c :: cs => lastOr (some c) cs

theorem lastOr_append (before : Option Char) (cs : List Char) {w : List Char} (h : w ≠ []) :
    lastOr before (cs ++ w) = w.getLast? := by
  induction cs generalizing before with
  | nil =>
    cases w with
    | nil => exact absurd rfl h
    | cons c w =>
      rw [List.nil_append, lastOr]
      induction w generalizing c with
      | nil => rfl
      | cons d w ih => rw [lastOr, ih d (by simp), List.getLast?_cons_cons]
  | cons c cs ih => exact ih (some c)

theorem lastOr_none (cs : List Char) : lastOr none cs = cs.getLast? := by
  cases cs with
  | nil => rfl
  | cons c cs => exact lastOr_append none [] (by simp)

theorem HasAccess.append (h : HasAccess receiver g (lastOr before w) cs) :
    HasAccess receiver g before (w ++ cs) := by
  induction w generalizing before with
  | nil => exact h
  | cons c w ih => exact .inr (ih h)

theorem Access.hasAccess (h : Access receiver g before cs w rest) :
    HasAccess receiver g before cs := by
  cases cs with
  | nil => exact h.not_nil.elim
  | cons c cs => exact .inl ⟨w, rest, h⟩

/-- No access begins in a run of identifier characters unless a dot and its name follow. -/
theorem HasAccess.skip (h : HasAccess receiver g before (v ++ d :: cs))
    (hv : ∀ c ∈ v, isIdentifierChar c = true) (hd : isIdentifierChar d = false)
    (hcs : d = '.' → ∀ rest, rest.head?.any Unicode.isWord = false → cs ≠ g ++ rest) :
    HasAccess receiver g (some d) cs := by
  have hrun : ∀ {before v} w rest, (∀ c ∈ v, isIdentifierChar c = true) →
      ¬ Access receiver g before (v ++ d :: cs) w rest := by
    intro before v w rest hv hacc
    obtain ⟨-, hdot, heq⟩ := hacc.run hv hd
    exact hcs hdot rest hacc.ends heq
  induction v generalizing before with
  | nil =>
    rcases h with ⟨w, rest, hacc⟩ | h
    · exact absurd hacc (hrun (v := []) w rest hv)
    · exact h
  | cons c v ih =>
    rcases h with ⟨w, rest, hacc⟩ | h
    · exact absurd hacc (hrun (v := c :: v) w rest hv)
    · exact ih h fun x hx => hv x (List.mem_cons_of_mem _ hx)

/-- No access begins in a run that ends in something else than a dot. -/
theorem HasAccess.skipRun (h : HasAccess receiver g before (v ++ d :: cs))
    (hv : ∀ c ∈ v, isIdentifierChar c = true) (hd : isIdentifierChar d = false) (hdot : d ≠ '.') :
    HasAccess receiver g (some d) cs :=
  h.skip hv hd fun heq => absurd heq hdot

theorem HasAccess.tail (h : HasAccess receiver g before (d :: cs))
    (hd : isIdentifierChar d = false) : HasAccess receiver g (some d) cs := by
  rcases h with ⟨w, rest, hacc⟩ | h
  · rw [hacc.head] at hd
    cases hd
  · exact h

/-- No access begins in a receiver or in what is put after it. -/
theorem hasAccess_of_inserted (hg : isIdentifier g = true) (hne : g ≠ "try_get".toList)
    (hf : ∀ c ∈ f, isIdentifierChar c = true) (hw : ∀ c ∈ w, isIdentifierChar c = true)
    (h : HasAccess receiver g before (w ++ (inserted f ++ out))) :
    HasAccess receiver g (some ')') out := by
  have hsplit : inserted f ++ out = '.' :: ("try_get".toList ++ '(' :: '"' :: (f ++ '"' :: ')' ::
      '.' :: ("unwrap_or_default".toList ++ '(' :: ')' :: out))) := by
    have hassoc : ∀ a b : List Char, (a ++ (f ++ b)) ++ out = a ++ (f ++ (b ++ out)) := by simp
    exact (hassoc _ _).trans rfl
  rw [hsplit] at h
  have htry : ∀ c ∈ "try_get".toList, isIdentifierChar c = true :=
    isIdentifierChar_of_isIdentifier (by decide)
  have hunwrap : ∀ c ∈ "unwrap_or_default".toList, isIdentifierChar c = true :=
    isIdentifierChar_of_isIdentifier (by decide)
  have h := h.skip hw rfl fun _ rest hrest heq => by
    obtain ⟨rfl, -⟩ := run_unique htry (isIdentifierChar_of_isIdentifier hg)
      (show EndsRun ('(' :: _) from rfl) (endsRun_of_any_isWord hrest) heq
    exact hne rfl
  have h := (h.skipRun htry rfl (by decide)).tail rfl
  have h := ((h.skipRun hf rfl (by decide)).tail rfl).tail rfl
  exact (h.skipRun hunwrap rfl (by decide)).tail rfl

/-! ## Replacing accesses -/

theorem Accessed.head (h : Accessed receiver f before cs (d :: out))
    (hb : before.any Unicode.isWord = true) :
    ∃ rest, cs = d :: rest ∧ Accessed receiver f (some d) rest out := by
  generalize hout : d :: out = out' at h
  cases h with
  | nil => cases hout
  | skip _ h =>
    obtain ⟨rfl, rfl⟩ := List.cons.inj hout
    exact ⟨_, rfl, h⟩
  | access hacc =>
    rw [hacc.starts] at hb
    cases hb

/-- After a word character a run of identifier characters is kept. -/
theorem Accessed.run (h : Accessed receiver f before cs (w ++ out))
    (hb : before.any Unicode.isWord = true) (hw : ∀ c ∈ w, isIdentifierChar c = true) :
    ∃ before' rest, cs = w ++ rest ∧ Option.any Unicode.isWord before' = true ∧
      Accessed receiver f before' rest out := by
  induction w generalizing before cs with
  | nil => exact ⟨before, cs, rfl, hb, h⟩
  | cons c w ih =>
    obtain ⟨rest, rfl, htail⟩ := h.head hb
    have hc := isWord_of_isIdentifierChar (hw c List.mem_cons_self)
    obtain ⟨before', rest', rfl, hb', hrest⟩ :=
      ih htail hc fun x hx => hw x (List.mem_cons_of_mem _ hx)
    exact ⟨before', rest', rfl, hb', hrest⟩

theorem Accessed.head?_eq (h : Accessed receiver f before cs out)
    (hb : before.any Unicode.isWord = true) : cs.head? = out.head? := by
  cases h with
  | nil | skip => rfl
  | access hacc =>
    rw [hacc.starts] at hb
    cases hb

/-- A name with its end is there after the accesses were replaced only if it was before. -/
theorem Accessed.name (h : Accessed receiver f before cs (g ++ out)) (hg : isIdentifier g = true)
    (hout : out.head?.any Unicode.isWord = false) :
    ∃ rest, cs = g ++ rest ∧ rest.head?.any Unicode.isWord = false := by
  have hchars := isIdentifierChar_of_isIdentifier hg
  cases g with
  | nil => cases hg
  | cons c g =>
    generalize hall : c :: g ++ out = all at h
    cases h with
    | nil => cases hall
    | skip _ h =>
      obtain ⟨rfl, rfl⟩ := List.cons.inj hall
      have hc := isWord_of_isIdentifierChar (hchars c List.mem_cons_self)
      obtain ⟨before', rest, rfl, hb, hrest⟩ :=
        h.run hc fun x hx => hchars x (List.mem_cons_of_mem _ hx)
      exact ⟨rest, rfl, by rw [hrest.head?_eq hb, hout]⟩
    | @access _ _ w rest out' hacc _ =>
      have hw := isIdentifierChar_of_isIdentifier hacc.isReceiver.1
      obtain ⟨rfl, -⟩ := run_unique hchars hw (endsRun_of_any_isWord hout)
        (show EndsRun (inserted f ++ out') from rfl) hall
      exact ⟨'.' :: (f ++ rest), hacc.eq, rfl⟩

/-- An access at the start of the new text stands at the start of the text before. -/
theorem Accessed.access_of_skip (h : Accessed receiver f (some c) cs out)
    (hg : isIdentifier g = true) (hacc : Access receiver g before (c :: out) w rest) :
    ∃ rest, Access receiver g before (c :: cs) w rest := by
  obtain ⟨hstarts, hreceiver, heq, hends⟩ := hacc
  have hchars := isIdentifierChar_of_isIdentifier hreceiver.1
  cases w with
  | nil => cases hreceiver.1
  | cons x w =>
    obtain ⟨rfl, rfl⟩ := List.cons.inj heq
    have hc := isWord_of_isIdentifierChar (hchars c List.mem_cons_self)
    obtain ⟨before', rest', rfl, hb, hdot⟩ :=
      h.run hc fun x hx => hchars x (List.mem_cons_of_mem _ hx)
    obtain ⟨rest'', rfl, hname⟩ := hdot.head hb
    obtain ⟨rest, rfl, hends'⟩ := hname.name hg hends
    exact ⟨rest, hstarts, hreceiver, rfl, hends'⟩

/-- Replacing the accesses to `f` leaves none of them and brings about no others. -/
theorem Accessed.hasAccess (h : Accessed receiver f before cs out) (hf : isIdentifier f = true)
    (hg : isIdentifier g = true) (hne : g ≠ "try_get".toList)
    (hout : HasAccess receiver g before out) : g ≠ f ∧ HasAccess receiver g before cs := by
  have hfchars := isIdentifierChar_of_isIdentifier hf
  induction h with
  | nil => exact hout.elim
  | skip hnone h ih =>
    rcases hout with ⟨w, rest, hacc⟩ | hout
    · obtain ⟨rest, hacc⟩ := h.access_of_skip hg hacc
      exact ⟨fun heq => hnone w rest (heq ▸ hacc), .inl ⟨w, rest, hacc⟩⟩
    · obtain ⟨hgf, hcs⟩ := ih hout
      exact ⟨hgf, .inr hcs⟩
  | @access before cs w rest out hacc h ih =>
    have hw := isIdentifierChar_of_isIdentifier hacc.isReceiver.1
    have hhead := h.head?_eq (any_isWord_getLast? hf [])
    have hout := hasAccess_of_inserted hg hne hfchars hw hout
    have hafter : HasAccess receiver g f.getLast? out := by
      cases out with
      | nil => exact hout
      | cons d out =>
        refine .inr (hout.tail ?_)
        have hends := hacc.ends
        rw [hhead] at hends
        exact endsRun_of_any_isWord hends
    obtain ⟨hgf, hrest⟩ := ih hafter
    refine ⟨hgf, ?_⟩
    rw [hacc.eq, show w ++ '.' :: (f ++ rest) = (w ++ '.' :: f) ++ rest by simp]
    refine HasAccess.append ?_
    rwa [show w ++ '.' :: f = (w ++ ['.']) ++ f by simp,
      lastOr_append _ _ (ne_nil_of_isIdentifier hf)]

end FieldSpec

end Amend
