/-!
# How many bytes a text has

Bytes are counted over characters, so that a text can be measured part by part. A text that stands
in another one and is not smaller is that text (`eq_of_isInfix_of_size_le`).
-/

namespace Provisioner.Text

/-- How many bytes a text has. -/
def size (text : List Char) : Nat := (String.ofList text).utf8ByteSize

@[simp] theorem size_nil : size [] = 0 := rfl

@[simp] theorem size_cons (c : Char) (text : List Char) :
    size (c :: text) = c.utf8Size + size text := by
  rw [size, String.ofList_cons, String.utf8ByteSize_append, String.utf8ByteSize_singleton, size]

theorem size_append (a b : List Char) : size (a ++ b) = size a + size b := by
  rw [size, String.ofList_append, String.utf8ByteSize_append, size, size]

theorem size_toList (text : String) : size text.toList = text.utf8ByteSize := by
  rw [size, String.ofList_toList]

theorem eq_nil_of_size_eq_zero {text : List Char} (h : size text = 0) : text = [] :=
  String.ofList_eq_empty_iff.mp (String.utf8ByteSize_eq_zero_iff.mp h)

theorem size_replicate (n : Nat) (c : Char) : size (List.replicate n c) = n * c.utf8Size := by
  induction n with
  | zero => rw [List.replicate_zero, size_nil, Nat.zero_mul]
  | succ n ih => rw [List.replicate_succ, size_cons, ih, Nat.succ_mul, Nat.add_comm]

theorem eq_of_isInfix_of_size_le {a b : List Char} (h : a <:+: b) (hle : size b ≤ size a) :
    a = b := by
  obtain ⟨front, rest, rfl⟩ := h
  rw [size_append, size_append] at hle
  have hfront : front = [] := eq_nil_of_size_eq_zero (by omega)
  have hrest : rest = [] := eq_nil_of_size_eq_zero (by omega)
  rw [hfront, hrest, List.nil_append, List.append_nil]

end Provisioner.Text
