/-!
# Decoding bytes

Bytes as text. What is not UTF-8 does not make it fail: it is marked in the text.
-/

set_option autoImplicit false

namespace Amend.Unicode

/-- The text that bytes hold; each sequence that is not UTF-8 is marked. -/
def decodeLossy : Nat → List UInt8 → List Char
  | 0, _ => []
  | fuel + 1, bytes =>
    match bytes with
    | [] => []
    | b :: rest =>
      let n := b.toNat
      if n < 0x80 then Char.ofNat n :: decodeLossy fuel rest
      else
        let (more, low, high) :=
          if 0xC2 ≤ n && n ≤ 0xDF then (1, 0x80, 0xBF)
          else if n = 0xE0 then (2, 0xA0, 0xBF)
          else if n = 0xED then (2, 0x80, 0x9F)
          else if 0xE1 ≤ n && n ≤ 0xEF then (2, 0x80, 0xBF)
          else if n = 0xF0 then (3, 0x90, 0xBF)
          else if n = 0xF4 then (3, 0x80, 0x8F)
          else if 0xF1 ≤ n && n ≤ 0xF3 then (3, 0x80, 0xBF)
          else (0, 0, 0)
        let fits (i : Nat) (b : UInt8) : Bool :=
          if i = 0 then low ≤ b.toNat && b.toNat ≤ high else 0x80 ≤ b.toNat && b.toNat ≤ 0xBF
        let good := ((rest.take more).zipIdx.takeWhile fun (b, i) => fits i b).map (·.1)
        if 0 < more && good.length = more then
          let lead := if more = 1 then n - 0xC0 else if more = 2 then n - 0xE0 else n - 0xF0
          Char.ofNat (good.foldl (fun v b => 64 * v + (b.toNat - 0x80)) lead) ::
            decodeLossy fuel (rest.drop more)
        else '\ufffd' :: decodeLossy fuel (rest.drop good.length)

/-- The text that bytes hold. -/
def textOfBytes (bytes : ByteArray) : String :=
  .ofList (decodeLossy (bytes.size + 1) bytes.toList)

end Amend.Unicode
