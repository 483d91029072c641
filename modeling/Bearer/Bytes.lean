namespace Bearer

abbrev Bytes := List UInt8

namespace Bytes

def xor (left right : Bytes) : Bytes := List.zipWith (· ^^^ ·) left right

def ofNat : Nat → Nat → Bytes
  | 0, _ => []
  | width + 1, value => ofNat width (value / 256) ++ [UInt8.ofNat value]

def toNat (bytes : Bytes) : Nat := bytes.foldl (fun value byte => value * 256 + byte.toNat) 0

def padTo (width : Nat) (bytes : Bytes) : Bytes :=
  bytes ++ List.replicate (width - bytes.length) 0

def chunksUpTo : Nat → Nat → Bytes → List Bytes
  | 0, _, _ => []
  | _ + 1, _, [] => []
  | count + 1, width, bytes => bytes.take width :: chunksUpTo count width (bytes.drop width)

def chunks (width : Nat) (bytes : Bytes) : List Bytes := chunksUpTo bytes.length width bytes

def flipBit (bytes : Bytes) (bit : Nat) : Bytes :=
  let place := bit % (8 * bytes.length)
  bytes.modify (place / 8) (· ^^^ UInt8.ofNat (Nat.pow 2 (place % 8)))

@[simp] theorem length_ofNat (width value : Nat) : (ofNat width value).length = width := by
  induction width generalizing value with
  | zero => rfl
  | succ width ih => simp [ofNat, ih]

@[simp] theorem length_xor (left right : Bytes) :
    (xor left right).length = min left.length right.length := by
  simp [xor]

theorem xor_xor (text stream : Bytes) (long : text.length ≤ stream.length) :
    xor (xor text stream) stream = text := by
  induction text generalizing stream with
  | nil => simp [xor]
  | cons byte rest ih =>
      cases stream with
      | nil => simp at long
      | cons key keys =>
          have tail := ih keys (by simpa using long)
          simp only [xor, List.zipWith_cons_cons] at tail ⊢
          rw [tail, UInt8.xor_assoc, UInt8.xor_self, UInt8.xor_zero]

end Bytes

end Bearer
