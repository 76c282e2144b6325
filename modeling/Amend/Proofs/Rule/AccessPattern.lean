import Amend.Proofs.Pattern.Reading
import Amend.Proofs.Pattern.Scan
import Amend.Proofs.Rule.Access

/-!
# The pattern of accesses

The pattern that stands for the accesses to a field is read into `accessRegex`, unless its program
would be too large (`ofString?_accessPattern`), and it matches the accesses to the field
(`takes_accessRegex`).
-/

set_option autoImplicit false

namespace Amend.FieldSpec

open Pattern

/-! ## The expression -/

/-- The set of the class `[A-Za-z_]`. -/
def startSet : Char → Bool :=
  (ClassPart.union [.single '_', .range 'a' 'z', .range 'A' 'Z']).set

/-- The set of the class `[A-Za-z0-9_]`. -/
def charSet : Char → Bool :=
  (ClassPart.union [.single '_', .range '0' '9', .range 'a' 'z', .range 'A' 'Z']).set

/-- The pieces of the pattern of receivers. -/
def receiverPieces : Option String → List Piece
  | some r => literals r.toList
  | none => [⟨some (.set startSet), 2, 5⟩, ⟨some (.star true (.set charSet)), 3, 8⟩]

/-- What the pattern of receivers matches. -/
def receiverRegex (receiver : Option String) : Regex :=
  .concat ((receiverPieces receiver).map Piece.regexOf)

/-- What the pattern of accesses matches. -/
def accessRegex (receiver : Option String) (name : String) : Regex :=
  .concat (.assert (.wordBoundary .unicode) :: .group 1 (receiverRegex receiver) ::
    .set (· == '.') :: (name.toList.map (fun c => .set (· == c)) ++
      [.assert (.wordBoundary .unicode)]))

/-- How much room the program of accesses takes. -/
def accessWeight (receiver : Option String) (name : String) : Nat :=
  receiver.elim 13 String.length + name.length + 5

/-! ## Reading it -/

theorem isMeta_of_isIdentifierChar {c : Char} (h : isIdentifierChar c = true) :
    isMeta c = false := by
  have hmeta : ("\\.+*?()|[]\x7b\x7d^$#&-~".toList.all fun x => !isIdentifierChar x) = true := by
    decide
  rw [← Bool.not_eq_true]
  intro hc
  have hnot := List.all_eq_true.mp hmeta c (List.contains_iff_mem.mp hc)
  rw [h] at hnot
  cases hnot

theorem isMeta_of_isIdentifier {w : List Char} (h : isIdentifier w = true) :
    ∀ c ∈ w, isMeta c = false :=
  fun c hc => isMeta_of_isIdentifierChar (isIdentifierChar_of_isIdentifier h c hc)

/-- The receiver group has been opened. -/
def openedReceiver (pieces : List Piece) : Reading where
  pieces := pieces
  frames := [⟨some 1, {}, [.leaf (.assert (.wordBoundary .unicode)) 1], []⟩]
  groups := 1
  names := [("receiver", 1)]

/-- The receiver group has been closed. -/
def closedReceiver (pieces : List Piece) : Reading where
  pieces := pieces
  groups := 1
  names := [("receiver", 1)]

/-- The group of the receiver as a piece. -/
def receiverGroup (body : Piece) : Piece :=
  ⟨some (.group 1 body.regexOf), body.depth + 1, body.weight + 2⟩

theorem readFrom_opening (fuel : Nat) (rest : List Char) :
    readFrom (fuel + 2) {} ("\\b(?P<receiver>".toList ++ rest) =
      readFrom fuel (openedReceiver []) rest := rfl

theorem readFrom_receiver {spec : FieldSpec} {source : String}
    (hsource : spec.receiverPattern = .ok source) (fuel : Nat) (rest : List Char) :
    ∃ fuel', fuel ≤ fuel' ∧
      readFrom (fuel + source.length) (openedReceiver []) (source.toList ++ ')' :: rest) =
        readFrom fuel' (openedReceiver (receiverPieces spec.receiver).reverse) (')' :: rest) := by
  unfold receiverPattern at hsource
  split at hsource
  · next r hr =>
    unfold checkIdentifier at hsource
    split at hsource
    · next hid =>
      have hmeta := isMeta_of_isIdentifier hid
      rw [escape_eq_self hmeta] at hsource
      cases hsource
      refine ⟨fuel, Nat.le_refl _, ?_⟩
      rw [hr, ← String.length_toList, readFrom_append hmeta _ _ rfl]
      simp [receiverPieces, openedReceiver]
    · cases hsource
  · next hr =>
    cases hsource
    rw [hr]
    exact ⟨fuel + 19, Nat.le_add_right .., rfl⟩

theorem readFrom_closing (pieces : List Piece) (fuel : Nat) (rest : List Char) :
    readFrom (fuel + 2) (openedReceiver pieces) (')' :: '\\' :: '.' :: rest) =
      readFrom fuel (closedReceiver [.leaf (.set (· == '.')) 1,
        receiverGroup (.concat pieces.reverse), .leaf (.assert (.wordBoundary .unicode)) 1]) rest :=
  rfl

theorem readFrom_end (pieces : List Piece) (fuel : Nat) :
    readFrom (fuel + 2) (closedReceiver pieces) "\\b".toList =
      .ok (closedReceiver (.leaf (.assert (.wordBoundary .unicode)) 1 :: pieces)) :=
  rfl

/-- The pieces of the pattern of accesses. -/
def accessPieces (receiver : Option String) (name : String) : List Piece :=
  .leaf (.assert (.wordBoundary .unicode)) 1 :: receiverGroup (.concat (receiverPieces receiver)) ::
    .leaf (.set (· == '.')) 1 :: (literals name.toList ++
      [.leaf (.assert (.wordBoundary .unicode)) 1])

theorem toList_accessPattern {name : String} (hname : isIdentifier name.toList = true)
    (source : String) : (accessPattern source name).toList = "\\b(?P<receiver>".toList ++
      (source.toList ++ ')' :: '\\' :: '.' :: (name.toList ++ "\\b".toList)) := by
  have hassoc : ∀ a b c d : List Char, a ++ b ++ [')', '\\', '.'] ++ c ++ d =
      a ++ (b ++ ')' :: '\\' :: '.' :: (c ++ d)) := by
    simp
  unfold accessPattern
  rw [escape_eq_self (isMeta_of_isIdentifier hname)]
  simp only [String.toList_append]
  exact hassoc _ _ _ _

theorem readFrom_accessPattern {spec : FieldSpec} {source name : String}
    (hsource : spec.receiverPattern = .ok source) (hname : isIdentifier name.toList = true) :
    readFrom ((accessPattern source name).toList.length + 1) {} (accessPattern source name).toList =
      .ok (closedReceiver (accessPieces spec.receiver name).reverse) := by
  rw [toList_accessPattern hname]
  have hlength : ("\\b(?P<receiver>".toList ++ (source.toList ++ ')' :: '\\' :: '.' ::
      (name.toList ++ "\\b".toList))).length + 1 =
        (name.toList.length + 19) + source.length + 2 := by
    have hopening : "\\b(?P<receiver>".toList.length = 15 := rfl
    have hend : "\\b".toList.length = 2 := rfl
    simp only [List.length_append, List.length_cons, hopening, hend, String.length_toList]
    omega
  rw [hlength, readFrom_opening]
  obtain ⟨fuel, hfuel, hreceiver⟩ := readFrom_receiver hsource (name.toList.length + 19)
    ('\\' :: '.' :: (name.toList ++ "\\b".toList))
  obtain ⟨k, rfl⟩ := Nat.exists_eq_add_of_le hfuel
  rw [hreceiver, show name.toList.length + 19 + k = (k + 15 + 2 + name.toList.length) + 2 by omega,
    readFrom_closing, readFrom_append (isMeta_of_isIdentifier hname) _ _ rfl]
  refine (readFrom_end _ _).trans ?_
  simp [accessPieces, closedReceiver]

/-! ## What is read -/

theorem isSome_of_mem_receiverPieces {receiver : Option String} {p : Piece}
    (hp : p ∈ receiverPieces receiver) : p.regex.isSome := by
  cases receiver with
  | none =>
    simp only [receiverPieces, List.mem_cons, List.not_mem_nil, or_false] at hp
    rcases hp with rfl | rfl <;> rfl
  | some r => exact isSome_of_mem_literals hp

theorem isSome_of_mem_accessPieces {receiver : Option String} {name : String} {p : Piece}
    (hp : p ∈ accessPieces receiver name) : p.regex.isSome := by
  simp only [accessPieces, List.mem_cons, List.mem_append, List.not_mem_nil, or_false] at hp
  rcases hp with rfl | rfl | rfl | hp | rfl
  any_goals rfl
  exact isSome_of_mem_literals hp

theorem regexOf_accessPieces (receiver : Option String) (name : String) :
    (Piece.concat (accessPieces receiver name)).regexOf = accessRegex receiver name := by
  have hgroup : (receiverGroup (.concat (receiverPieces receiver))).regexOf =
      .group 1 (receiverRegex receiver) :=
    congrArg (Regex.group 1) (regexOf_concat _ fun _ => isSome_of_mem_receiverPieces)
  rw [regexOf_concat _ fun _ => isSome_of_mem_accessPieces]
  simp only [accessPieces, List.map_cons, List.map_append, map_regexOf_literals, hgroup]
  rfl

theorem depth_accessPieces (receiver : Option String) (name : String) :
    (Piece.concat (accessPieces receiver name)).depth ≤ 6 := by
  have hliterals : ∀ w : List Char, ∀ p ∈ literals w, p.depth ≤ 3 := by
    intro w p hp
    rw [depth_of_mem_literals hp]
    exact Nat.zero_le 3
  have hreceiver : (Piece.concat (receiverPieces receiver)).depth ≤ 4 := by
    refine depth_concat_le fun p hp => ?_
    cases receiver with
    | none =>
      simp only [receiverPieces, List.mem_cons, List.not_mem_nil, or_false] at hp
      rcases hp with rfl | rfl <;> decide
    | some r => exact hliterals _ p hp
  refine depth_concat_le fun p hp => ?_
  simp only [accessPieces, List.mem_cons, List.mem_append, List.not_mem_nil, or_false] at hp
  rcases hp with rfl | rfl | rfl | hp | rfl
  · exact Nat.zero_le 5
  · exact Nat.succ_le_succ hreceiver
  · exact Nat.zero_le 5
  · exact (hliterals _ p hp).trans (by decide)
  · exact Nat.zero_le 5

theorem utf8Size_of_isIdentifierChar {c : Char} (h : isIdentifierChar c = true) :
    c.utf8Size = 1 :=
  Char.utf8Size_eq_one_iff.mpr
    (UInt32.le_iff_toNat_le.mpr (Nat.le_of_lt_succ (toNat_lt_of_isIdentifierChar h)))

theorem weight_accessPieces {receiver : Option String} {name : String}
    (hreceiver : ∀ r, receiver = some r → isIdentifier r.toList = true)
    (hname : isIdentifier name.toList = true) :
    (Piece.concat (accessPieces receiver name)).weight = accessWeight receiver name := by
  have hliterals : ∀ w : List Char, isIdentifier w = true →
      ((literals w).map Piece.weight).sum = w.length := by
    intro w hw
    have hchars := isIdentifierChar_of_isIdentifier hw
    clear hw
    induction w with
    | nil => rfl
    | cons c w ih =>
      have ih := ih fun x hx => hchars x (List.mem_cons_of_mem _ hx)
      have hc := utf8Size_of_isIdentifierChar (hchars c List.mem_cons_self)
      simp only [literals, List.map_cons, List.sum_cons, List.length_cons, Piece.leaf, hc] at ih ⊢
      omega
  have hbody : (Piece.concat (receiverPieces receiver)).weight =
      receiver.elim 13 String.length := by
    cases receiver with
    | none => rfl
    | some r =>
      have hr := hreceiver r rfl
      rw [receiverPieces, weight_concat, hliterals _ hr]
      · exact String.length_toList ..
      · simpa [literals] using ne_nil_of_isIdentifier hr
  rw [weight_concat _ (by simp [accessPieces])]
  simp only [accessPieces, List.map_cons, List.map_append, List.sum_cons, List.sum_append,
    List.map_nil, List.sum_nil, hliterals _ hname, receiverGroup, hbody, Piece.leaf, accessWeight,
    String.length_toList]
  omega

theorem isIdentifier_of_receiverPattern {spec : FieldSpec} {source : String}
    (hsource : spec.receiverPattern = .ok source) :
    ∀ r, spec.receiver = some r → isIdentifier r.toList = true := by
  intro r hr
  unfold receiverPattern at hsource
  rw [hr] at hsource
  dsimp only at hsource
  unfold checkIdentifier at hsource
  split at hsource
  · assumption
  · cases hsource

/-- The pattern of accesses is read as it is meant, unless it is too large. -/
theorem ofString?_accessPattern {spec : FieldSpec} {source name : String}
    (hsource : spec.receiverPattern = .ok source) (hname : isIdentifier name.toList = true) :
    Pattern.ofString? (accessPattern source name) =
      if Reading.maxWeight < accessWeight spec.receiver name then .error .tooLarge
      else .ok {
        source := accessPattern source name
        regex := accessRegex spec.receiver name
        names := [("receiver", 1)] } := by
  have hreceiver := isIdentifier_of_receiverPattern hsource
  have hwhole : (closedReceiver (accessPieces spec.receiver name).reverse).whole =
      Piece.concat (accessPieces spec.receiver name) := by
    unfold Reading.whole closedReceiver
    rw [List.reverse_reverse]
    rfl
  have hgroup : (accessRegex spec.receiver name).groups.contains 1 = true := by
    have hmem : 1 ∈ (Regex.group 1 (receiverRegex spec.receiver)).groups := List.mem_cons_self
    exact List.contains_iff_mem.mpr
      (mem_groups_concat (List.mem_cons_of_mem _ List.mem_cons_self) hmem)
  have hframes : (closedReceiver (accessPieces spec.receiver name).reverse).frames = [] := rfl
  have hdepth := depth_accessPieces spec.receiver name
  have hnames : (closedReceiver (accessPieces spec.receiver name).reverse).names.reverse.filter
      (fun n => (accessRegex spec.receiver name).groups.contains n.2) = [("receiver", 1)] :=
    List.filter_eq_self.mpr fun n hn => by
      obtain rfl := List.mem_singleton.mp hn
      exact hgroup
  unfold Pattern.ofString? Pattern.read
  rw [readFrom_accessPattern hsource hname]
  simp only [hwhole, regexOf_accessPieces, weight_accessPieces hreceiver hname, hnames, hframes,
    List.isEmpty_nil, Bool.not_true, Bool.false_eq_true, if_false]
  rw [if_neg (by rw [maxDepth]; omega)]
  by_cases hlarge : Reading.maxWeight < accessWeight spec.receiver name
  · rw [if_pos hlarge, if_pos hlarge]
  · rw [if_neg hlarge, if_neg hlarge]

/-! ## What it matches -/

theorem startSet_eq (c : Char) : startSet c = isIdentifierStart c := by
  unfold startSet isIdentifierStart Char.isAlpha Char.isUpper Char.isLower
  simp only [ClassPart.union, ClassPart.single, ClassPart.range, List.any_cons, List.any_nil,
    Bool.or_false, Bool.decide_and]
  rw [Bool.or_comm, Bool.or_comm (_ && _)]
  rfl

theorem charSet_eq (c : Char) : charSet c = isIdentifierChar c := by
  unfold charSet isIdentifierChar Char.isAlphanum Char.isAlpha Char.isUpper Char.isLower
    Char.isDigit
  simp only [ClassPart.union, ClassPart.single, ClassPart.range, List.any_cons, List.any_nil,
    Bool.or_false, Bool.decide_and]
  rw [Bool.or_comm, Bool.or_comm (_ && _), Bool.or_comm (_ && _)]
  rfl

section
variable {receiver : Option String} {name : String} {text : Array Char} {before rest : List Char}
  {saved : List (Nat × Nat)} {b : Point}

theorem takes_receiverRegex (hreceiver : ∀ r, receiver = some r → isIdentifier r.toList = true)
    (h : text.toList = before ++ rest) :
    Regex.Takes text (receiverRegex receiver) ⟨before.length, saved⟩ b ↔
      ∃ w rest', rest = w ++ rest' ∧ IsReceiver receiver w ∧
        b = ⟨(before ++ w).length, saved⟩ := by
  cases receiver with
  | some r =>
    rw [receiverRegex, receiverPieces, map_regexOf_literals, Regex.takes_literal h]
    constructor
    · rintro ⟨rest', hrest, hb⟩
      exact ⟨r.toList, rest', hrest, ⟨hreceiver r rfl, fun s hs => by cases hs; rfl⟩, hb⟩
    · rintro ⟨w, rest', hrest, ⟨-, hw⟩, hb⟩
      obtain rfl := hw r rfl
      exact ⟨rest', hrest, hb⟩
  | none =>
    have hregex : receiverRegex none = .seq (.set startSet) (.star true (.set charSet)) := rfl
    rw [hregex, Regex.takes_seq]
    constructor
    · rintro ⟨b', hstart, hstar⟩
      obtain ⟨c, rest', rfl, hc, rfl⟩ := (Regex.takes_set_of_split h).mp hstart
      have h' : text.toList = (before ++ [c]) ++ rest' := by rw [h]; simp
      obtain ⟨w, rest, rfl, hw, rfl⟩ := (Regex.takes_star_set h').mp hstar
      refine ⟨c :: w, rest, rfl, ⟨?_, fun r hr => by cases hr⟩, by simp⟩
      rw [isIdentifier, ← startSet_eq, hc, Bool.true_and, List.all_eq_true]
      exact fun x hx => charSet_eq x ▸ hw x hx
    · rintro ⟨w, rest', rfl, ⟨hw, -⟩, rfl⟩
      cases w with
      | nil => cases hw
      | cons c w =>
        rw [isIdentifier, Bool.and_eq_true, List.all_eq_true, ← startSet_eq] at hw
        have h' : text.toList = (before ++ [c]) ++ (w ++ rest') := by rw [h]; simp
        refine ⟨_, (Regex.takes_set_of_split h).mpr ⟨c, _, rfl, hw.1, rfl⟩, ?_⟩
        exact (Regex.takes_star_set h').mpr
          ⟨w, rest', rfl, fun x hx => charSet_eq x ▸ hw.2 x hx, by simp⟩

theorem holds_wordBoundary (before after : Option Char) :
    (Assertion.wordBoundary .unicode).holds before after =
      (before.any Unicode.isWord != after.any Unicode.isWord) := rfl

/-- The expression matches the accesses, and its group is the receiver. -/
theorem takes_accessRegex (hreceiver : ∀ r, receiver = some r → isIdentifier r.toList = true)
    (hname : isIdentifier name.toList = true) (h : text.toList = before ++ rest) :
    Regex.Takes text (accessRegex receiver name) ⟨before.length, []⟩ b ↔
      ∃ w rest', Access receiver name.toList before.getLast? rest w rest' ∧
        b = ⟨(before ++ w ++ '.' :: name.toList).length,
          [(3, (before ++ w).length), (2, before.length)]⟩ := by
  unfold accessRegex
  simp only [Regex.takes_concat_cons, Regex.takes_concat_append, Regex.takes_concat_nil,
    Regex.takes_group, exists_eq_right']
  constructor
  · rintro ⟨_, hbefore, _, ⟨_, hgroup, rfl⟩, _, hdot, _, hliteral, hafter⟩
    obtain ⟨hstart, rfl⟩ := (Regex.takes_assert_of_split h).mp hbefore
    obtain ⟨w, rest', rfl, hw, rfl⟩ := (takes_receiverRegex hreceiver h).mp hgroup
    have h₁ : text.toList = (before ++ w) ++ rest' := by rw [h, List.append_assoc]
    obtain ⟨d, rest, rfl, hd, rfl⟩ := (Regex.takes_set_of_split h₁).mp hdot
    obtain rfl : d = '.' := eq_of_beq hd
    have h₂ : text.toList = (before ++ w ++ ['.']) ++ rest := by rw [h₁]; simp
    obtain ⟨rest', rfl, rfl⟩ := (Regex.takes_literal h₂).mp hliteral
    have h₃ : text.toList = (before ++ w ++ ['.'] ++ name.toList) ++ rest' := by rw [h₂]; simp
    obtain ⟨hend, rfl⟩ := (Regex.takes_assert_of_split h₃).mp hafter
    rw [holds_wordBoundary, any_isWord_head? hw.1] at hstart
    rw [holds_wordBoundary, any_isWord_getLast? hname] at hend
    exact ⟨w, rest', ⟨by simpa using hstart, hw, rfl, by simpa using hend⟩, by simp⟩
  · rintro ⟨w, rest', ⟨hstart, hw, rfl, hend⟩, rfl⟩
    have h₁ : text.toList = (before ++ w) ++ '.' :: (name.toList ++ rest') := by
      rw [h, List.append_assoc]
    have h₂ : text.toList = (before ++ w ++ ['.']) ++ (name.toList ++ rest') := by rw [h₁]; simp
    have h₃ : text.toList = (before ++ w ++ ['.'] ++ name.toList) ++ rest' := by rw [h₂]; simp
    refine ⟨_, (Regex.takes_assert_of_split h).mpr ⟨?_, rfl⟩, _,
      ⟨_, (takes_receiverRegex hreceiver h).mpr ⟨w, _, rfl, hw, rfl⟩, rfl⟩, _,
      (Regex.takes_set_of_split h₁).mpr ⟨'.', _, rfl, rfl, rfl⟩, _,
      (Regex.takes_literal h₂).mpr ⟨rest', rfl, rfl⟩,
      (Regex.takes_assert_of_split h₃).mpr ⟨?_, by simp⟩⟩
    · rw [holds_wordBoundary, any_isWord_head? hw.1, hstart]
      rfl
    · rw [holds_wordBoundary, any_isWord_getLast? hname, hend]
      rfl

theorem neverEmpty_accessRegex : Regex.NeverEmpty text (accessRegex receiver name) :=
  Regex.neverEmpty_concat (List.mem_cons_of_mem _ (List.mem_cons_of_mem _ List.mem_cons_self))
    (Regex.neverEmpty_set _)

end

end Amend.FieldSpec
