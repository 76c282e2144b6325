import Amend.Unicode.Table

/-!
# Letters that differ in case alone

Simple case folding of Unicode 16.0 puts the characters that differ in case alone into classes.
-/

set_option autoImplicit false

namespace Amend.Unicode.Folding

/-- The classes, each by its size less two, the distance of its first member from the first
member of the class before it, and the distances from member to member. -/
def source : String :=
  String.join [
    "AcBbAABbAABbAABbAABbAABbAABbAABbAABbAABbABBbAif-ABbAABbAABbAABbAABbAABbAABbABBbAiMABbAABbAABbAAB",
    "bAABbAABbAABbABc7xHbAALbAABbAABbAABbAABbABBbAicGABbAABbAABbAABbAABbAABbAABbAABbAABbAABbAABbAABbA",
    "ABbAABbAABbAABbAABbAACbAABbAABbAABbAABbAABbAABbAABhn-AbAdZABBACBACBACBACBACBACBACBACBACBACBACBAC",
    "BACBACBACBACBACBACBACBACBACBACBACBAEBACBACBADBACBACBACBACBACBACBACBADBACBACBACBACBACBACBACBACBAC",
    "BACBACBACBACBACBACBACBACBACBACBACBACBACBADBACBACBADgDABgSABBACBACgOABBACgNABgNABBADcPABgKABgLABB",
    "ACgNABgPABdBABgTABgRABBACfDABbjsBABgTABgVABeCABgWABBACBACBACg6ABBACg6ADBACg6ABBACgZABgZABBACBACg",
    "7ABBAEBADbYBFBBBDBBBDBBADBACBACBACBACBACBACBACBADBACBACBACBACBACBACBACBACBBDBBADBAEBACBACBACBACB",
    "ACBACBACBACBACBACBACBACBACBACBACBACBACBACBACBAEBACBACBACBACBACBACBACBACBAIkrLABBADkrIABkr-ABkr-A",
    "BBADcFABcHABBACBACBACBACBACkq-ABkq8ABkq+AKbjkPAFbjkLADbjlHABbjjIABbjkEAEbjkEABkpXABbjkBAFkp9AMkp",
    "HAFbjkDAFbjjKAWbjiVABbjiSCfHcUbAhaFAbLBACBAEBAFeCABeCABeCACdUAHbGACbFABbFABbFACcAACb-ABb-ACbABBb",
    "A+ABbAABbABBbAcAABbAABbACBbAZbDBCbAbWABbAACbAABbAABbABBbAWBBbAbQBC-BABbAABbABBbAPABbAABbABBbAhk9",
    "ABbAABbAAbEIAJBACBACBACBACBACBACBACBACBACBACBACBAEHAFBADBAGcQABcQABcQABcQABcQABcQABcQABcQABcQABc",
    "QABcQABcQABcQABcQABcQABcQABbAABbABBbAgcOABbABBbAgcNABbAABbAABbAABbAABbAABbAABbAABbAABbABBbAgcEAB",
    "bAABbABBbAgcCCBbAgcCBABbAABbAABbAABbAABbAABbAABbABBbAgb8ABbAABbAABbAABbAABbAAbRBBCBgbEACBACBACBA",
    "CBACBACBACBACBACBACBACBACBACBACBACBAKBACBACBACBACBACBACBACBACBACBACBACBACBACBACBACBACBACBACBACBA",
    "CBACBACBACBACBACBACBACPABBACBACBACBACBACBACBADBACBACBACBACBACBACBACBACBACBACBACBACBACBACBACBACBA",
    "CBACBACBACBACBACBACBACBACBACBACBACBACBACBACBACBACBACBACBACBACBACBACBACBACBACBACBACBACBACBACBADbQ",
    "ABbQABbQABbQABbQABbQABbQABbQABbQABbQABbQABbQABbQABbQABbQABbQABbQABbQABbQABbQABbQABbQABbQABbQABbQ",
    "ABbQABbQABbQABbQABbQABbQABbQABbQABbQABbQABbQABbQABbQAc0KhdAABhdAABhdAABhdAABhdAABhdAABhdAABhdAAB",
    "hdAABhdAABhdAABhdAABhdAABhdAABhdAABhdAABhdAABhdAABhdAABhdAABhdAABhdAABhdAABhdAABhdAABhdAABhdAABh",
    "dAABhdAABhdAABhdAABhdAABhdAABhdAABhdAABhdAABhdAABhdAAChdAAGhdAADc4AABc4AABc4AABc4AABc4AABc4AABc4",
    "AABc4AABc4AABc4AABc4AABc4AABc4AABc4AABc4AABc4AABc4AABc4AABc4AABc4AABc4AABc4AABc4AABc4AABc4AABc4A",
    "ABc4AABc4AABc4AABc4AABc4AABc4AABc4AABc4AABc4AABc4AABc4AABc4AABc4AABc4AABc4AABc4AABc4AADc4AABc4AA",
    "Bc4AAvBbf4QABbf4QABbf4QABbf4QABbf4QABbf4QABbf4QABbf4QABbf4QABbf4QABbf4QABbf4QABbf4QABbf4QABbf4QA",
    "Bbf4QABbf4QABbf4QABbf4QABbf4QABbf4QABbf4QABbf4QABbf4QABbf4QABbf4QABbf4QABbf4QABbf4QABbf4QABbf4QA",
    "Bbf4QABbf4QABbf4QABbf4QABbf4QABbf4QABbf4QABbf4QABbf4QABbf4QABbf4QABbf4QABbf4QABbf4QABbf4QABbf4QA",
    "Bbf4QABbf4QABbf4QABbf4QABbf4QABbf4QABbf4QABbf4QABbf4QABbf4QABbf4QABbf4QABbf4QABbf4QABbf4QABbf4QA",
    "Bbf4QABbf4QABbf4QABbf4QABbf4QABbf4QABbf4QABbf4QABbf4QABbf4QABbf4QABbf4QABbf4QABbf4QABbf4QABbf4QA",
    "Bbf4QABIABIABIABIABIABIBceTbcoCBABBAhQbcqEAEdxGARbcrYAdSBACBACBACBACBACBACBACBACBACBACBACBACBACB",
    "ACBACBACBACBACBACBACBACBACBACBACBACBACBACBACBACBACBACBACBACBACBACBACBACBACBACBACBACBACBACBACBACB",
    "ACBACBBCBb6ACBACBACBACBACBACBACBACBACBACBACBACBACBACBACBACBACBACBACBACBACBACBACBACBACBACBAMBACBA",
    "CBACBACBACBACBACBACBACBACBACBACBACBACBACBACBACBACBACBACBACBACBACBACBACBACBACBACBACBACBACBACBACBA",
    "CBACBACBACBACBACBACBACBACBACBACBACBACBACBACIABIABIABIABIABIABIABIAJIABIABIABIABIABIALIABIABIABIA",
    "BIABIABIABIAJIABIABIABIABIABIABIABIAJIABIABIABIABIABIAMIACIACIACIAJIABIABIABIABIABIABIABIAJcKABc",
    "KABcWABcWABcWABcWABdEABdEABeAABeAABdQABdQABd+ABd+ADIABIABIABIABIABIABIABIAJIABIABIABIABIABIABIAB",
    "IAJIABIABIABIABIABIABIABIAJIABIACJAQJANIABIAPIABIAEHAOJAj-8AbOQABQABQABQABQABQABQABQABQABQABQABQ",
    "ABQABQABQABQAUBAzT6AB6AB6AB6AB6AB6AB6AB6AB6AB6AB6AB6AB6AB6AB6AB6AB6AB6AB6AB6AB6AB6AB6AB6AB6AB6Ab",
    "zRbQABbQABbQABbQABbQABbQABbQABbQABbQABbQABbQABbQABbQABbQABbQABbQABbQABbQABbQABbQABbQABbQABbQABbQ",
    "ABbQABbQABbQABbQABbQABbQABbQABbQABbQABbQABbQABbQABbQABbQABbQABbQABbQABbQABbQABbQABbQABbQABbQABbQ",
    "AbRBAHBACBACBAHBADBALBACBACBACBACBACBACBACBACBACBACBACBACBACBACBACBACBACBACBACBACBACBACBACBACBAC",
    "BACBACBACBACBACBACBACBACBACBACBACBACBACBACBACBACBACBACBACBACBACBACBACBACBAJBACBAFBA4kOBACBACBACB",
    "ACBAEBACBACBACBACBACBACBACBACBACBACBACBACBACBACBACBACBAUBACBACBACBACBACBACBACBACBACBACBACBACBACB",
    "AeIBACBACBACBACBACBACBAEBACBACBACBACBACBACBACBACBACBACBACBACBACBACBACBACBACBACBACBACBACBACBACBAC",
    "BACBACBACBACBACBACBALBACBADBACBACBACBACBAFBAFBACBACbQACBACBACBACBACBACBACBACBACBACBAL3AABBACBACB",
    "ACBACBACBACBACBAFBACBADBAEBAGBACBACBA7BAvzMbAABbAABbAABbAABbAABbAABbAABbAABbAABbAABbAABbAABbAABb",
    "AABbAABbAABbAABbAABbAABbAABbAABbAABbAABbAABbAABbAAbgGbIABbIABbIABbIABbIABbIABbIABbIABbIABbIABbIA",
    "BbIABbIABbIABbIABbIABbIABbIABbIABbIABbIABbIABbIABbIABbIABbIABbIABbIABbIABbIABbIABbIABbIABbIABbIA",
    "BbIABbIABbIABbIABbIAeJbIABbIABbIABbIABbIABbIABbIABbIABbIABbIABbIABbIABbIABbIABbIABbIABbIABbIABbI",
    "ABbIABbIABbIABbIABbIABbIABbIABbIABbIABbIABbIABbIABbIABbIABbIABbIABbIAe9bHABbHABbHABbHABbHABbHABb",
    "HABbHABbHABbHABbHACbHABbHABbHABbHABbHABbHABbHABbHABbHABbHABbHABbHABbHABbHABbHACbHABbHABbHABbHABb",
    "HABbHABbHACbHABbHAbxLcAABcAABcAABcAABcAABcAABcAABcAABcAABcAABcAABcAABcAABcAABcAABcAABcAABcAABcAA",
    "BcAABcAABcAABcAABcAABcAABcAABcAABcAABcAABcAABcAABcAABcAABcAABcAABcAABcAABcAABcAABcAABcAABcAABcAA",
    "BcAABcAABcAABcAABcAABcAABcAABcAAe+bAABbAABbAABbAABbAABbAABbAABbAABbAABbAABbAABbAABbAABbAABbAABbA",
    "ABbAABbAABbAABbAABbAABbAAcz7bAABbAABbAABbAABbAABbAABbAABbAABbAABbAABbAABbAABbAABbAABbAABbAABbAAB",
    "bAABbAABbAABbAABbAABbAABbAABbAABbAABbAABbAABbAABbAABbAABbAAvmBbAABbAABbAABbAABbAABbAABbAABbAABbA",
    "ABbAABbAABbAABbAABbAABbAABbAABbAABbAABbAABbAABbAABbAABbAABbAABbAABbAABbAABbAABbAABbAABbAABbAA4vB",
    "bCABbCABbCABbCABbCABbCABbCABbCABbCABbCABbCABbCABbCABbCABbCABbCABbCABbCABbCABbCABbCABbCABbCABbCAB",
    "bCABbCABbCABbCABbCABbCABbCABbCABbCABbC"]

/-- Splits the numbers of `source` into classes; `first` is the first member of the class
before. -/
def classes (first : Nat) : Nat → List Nat → List (List Nat)
  | fuel + 1, size :: gap :: rest =>
    let members := (rest.take (size + 1)).foldl
      (fun (ms : List Nat) (step : Nat) => (ms.headD 0 + step) :: ms) [first + gap]
    members :: classes (first + gap) fuel (rest.drop (size + 1))
  | _, _ => []

/-- Every character that has variants, with the class it belongs to. -/
def entries : Array (Nat × List Nat) :=
  let numbers := decodeNumbers source
  let all := (classes 0 numbers.length numbers).flatMap fun ms => ms.map fun m => (m, ms)
  (all.mergeSort fun a b => a.1 ≤ b.1).toArray

/-- Binary search for `n` among the entries from `lo` up to `hi`. -/
def search (n : Nat) : Nat → Nat → Nat → Option (List Nat)
  | 0, _, _ => none
  | fuel + 1, lo, hi =>
    if lo < hi then
      let mid := (lo + hi) / 2
      match entries[mid]? with
      | none => none
      | some (m, ms) =>
        if n < m then search n fuel lo mid
        else if m < n then search n fuel (mid + 1) hi
        else some ms
    else none

/-- The class of an ASCII character: a letter in both cases, and for `k` and `s` the Kelvin sign
and the long s. -/
def asciiClass (n : Nat) : List Nat :=
  if 0x41 ≤ n && n ≤ 0x5A || 0x61 ≤ n && n ≤ 0x7A then
    let lower := n ||| 0x20
    let upper := lower - 0x20
    if lower == 0x6B then [upper, lower, 0x212A]
    else if lower == 0x73 then [upper, lower, 0x17F]
    else [upper, lower]
  else [n]

/-- All the characters that differ from `n` in case alone, `n` included. -/
def classOf (n : Nat) : List Nat :=
  if n < 128 then asciiClass n else (search n 32 0 entries.size).getD [n]

end Amend.Unicode.Folding
