import Mathlib.Data.List.Basic

/-!
# UTF-16-LE

`str.encode("utf-16-le")` and `bytes.decode("utf-16-le", errors="ignore")`. The
decoder leaves out what it cannot read: a low surrogate on its own, a high one
with no low one after it, and a last odd byte.
-/

namespace KepServerLogger.Py

/-- The two bytes of a code unit. -/
def unitBytes (u : Nat) : List UInt8 := [UInt8.ofNat (u % 256), UInt8.ofNat (u / 256)]

def unitOf (lo hi : UInt8) : Nat := lo.toNat + 256 * hi.toNat

theorem unitOf_unitBytes {u : Nat} (h : u < 0x10000) :
    unitOf (UInt8.ofNat (u % 256)) (UInt8.ofNat (u / 256)) = u := by
  unfold unitOf
  rw [UInt8.toNat_ofNat', UInt8.toNat_ofNat']
  omega

def encodeChar (c : Char) : List UInt8 :=
  if c.toNat < 0x10000 then unitBytes c.toNat
  else
    unitBytes (0xD800 + (c.toNat - 0x10000) / 0x400) ++
      unitBytes (0xDC00 + (c.toNat - 0x10000) % 0x400)

def encodeUtf16le (s : List Char) : List UInt8 := s.flatMap encodeChar

def decodeUtf16le : List UInt8 → List Char
  | lo :: hi :: rest =>
      if unitOf lo hi < 0xD800 ∨ 0xDFFF < unitOf lo hi then
        Char.ofNat (unitOf lo hi) :: decodeUtf16le rest
      else if 0xDC00 ≤ unitOf lo hi then decodeUtf16le rest
      else
        match rest with
        | lo' :: hi' :: rest' =>
            if 0xDC00 ≤ unitOf lo' hi' ∧ unitOf lo' hi' ≤ 0xDFFF then
              Char.ofNat (0x10000 + (unitOf lo hi - 0xD800) * 0x400 + (unitOf lo' hi' - 0xDC00)) ::
                decodeUtf16le rest'
            else decodeUtf16le (lo' :: hi' :: rest')
        | _ => []
  | _ => []

theorem decodeUtf16le_unit {lo hi : UInt8} {rest : List UInt8}
    (h : unitOf lo hi < 0xD800 ∨ 0xDFFF < unitOf lo hi) :
    decodeUtf16le (lo :: hi :: rest) = Char.ofNat (unitOf lo hi) :: decodeUtf16le rest := by
  rw [decodeUtf16le.eq_def]
  exact if_pos h

theorem decodeUtf16le_pair {lo hi lo' hi' : UInt8} {rest : List UInt8}
    (hhigh : 0xD800 ≤ unitOf lo hi ∧ unitOf lo hi < 0xDC00)
    (hlow : 0xDC00 ≤ unitOf lo' hi' ∧ unitOf lo' hi' ≤ 0xDFFF) :
    decodeUtf16le (lo :: hi :: lo' :: hi' :: rest) =
      Char.ofNat (0x10000 + (unitOf lo hi - 0xD800) * 0x400 + (unitOf lo' hi' - 0xDC00)) ::
        decodeUtf16le rest := by
  rw [decodeUtf16le.eq_def]
  show (if _ then _ else if _ then _ else if _ then _ else _) = _
  rw [if_neg (by omega), if_neg (by omega), if_pos hlow]

theorem decodeUtf16le_encodeChar (c : Char) (rest : List UInt8) :
    decodeUtf16le (encodeChar c ++ rest) = c :: decodeUtf16le rest := by
  have hvalid : c.toNat < 0xD800 ∨ 0xDFFF < c.toNat ∧ c.toNat < 0x110000 := c.valid
  unfold encodeChar
  split
  · next hlt =>
      have hunit : c.toNat < 0xD800 ∨ 0xDFFF < c.toNat := by omega
      rw [← unitOf_unitBytes hlt] at hunit
      refine (decodeUtf16le_unit hunit).trans ?_
      rw [unitOf_unitBytes hlt, Char.ofNat_toNat]
      rfl
  · next hge =>
      have hhigh : 0xD800 + (c.toNat - 0x10000) / 0x400 < 0x10000 := by omega
      have hlow : 0xDC00 + (c.toNat - 0x10000) % 0x400 < 0x10000 := by omega
      have hback : 0x10000 + (0xD800 + (c.toNat - 0x10000) / 0x400 - 0xD800) * 0x400 +
          (0xDC00 + (c.toNat - 0x10000) % 0x400 - 0xDC00) = c.toNat := by omega
      refine (decodeUtf16le_pair ?_ ?_).trans ?_
      · rw [unitOf_unitBytes hhigh]
        omega
      · rw [unitOf_unitBytes hlow]
        omega
      · rw [unitOf_unitBytes hhigh, unitOf_unitBytes hlow, hback, Char.ofNat_toNat]
        rfl

/-- Text that was encoded is read back. -/
theorem decodeUtf16le_encode (s : List Char) : decodeUtf16le (encodeUtf16le s) = s := by
  induction s with
  | nil => rfl
  | cons c s ih =>
      rw [encodeUtf16le, List.flatMap_cons, decodeUtf16le_encodeChar]
      exact congrArg (c :: ·) ih

end KepServerLogger.Py
