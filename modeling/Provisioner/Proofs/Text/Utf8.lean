import Mathlib.Data.List.Induction
import Provisioner.Text.Utf8

/-!
# UTF-8 around ASCII characters

A byte below 0x80 is a character of its own wherever it stands: it ends what was begun in front of
it and has no part in what follows, so bytes are read separately on its two sides
(`decodeLossy_append_cons`). The other bytes give characters beyond ASCII only, ill-formed ones
being read as U+FFFD (`mem_of_mem_decodeLossy`, `decodeLossy_concat_of_foreign`).

What was written is read back as it was (`decodeLossy_encode`).
-/

namespace Provisioner.Text.Utf8

/-! ## The first byte of a character -/

section First

variable {b : UInt8} (read : List (Option Char))

theorem first_of_ascii (h : b.toNat < 0x80) :
    first read b = ⟨some (Char.ofNat b.toNat) :: read, none⟩ := by
  rw [first, if_pos h]

theorem first_of_two (h : 0xC2 ≤ b.toNat) (h' : b.toNat < 0xE0) :
    first read b = ⟨read, some ⟨b.toNat - 0xC0, 0, 0x80, 0xBF⟩⟩ := by
  rw [first, if_neg (by omega), if_neg (by omega), if_pos h']

theorem first_of_three (h : 0xE0 ≤ b.toNat) (h' : b.toNat < 0xF0) :
    first read b = ⟨read, some ⟨b.toNat - 0xE0, 1, if b.toNat = 0xE0 then 0xA0 else 0x80,
      if b.toNat = 0xED then 0x9F else 0xBF⟩⟩ := by
  rw [first, if_neg (by omega), if_neg (by omega), if_neg (by omega)]
  by_cases he0 : b.toNat = 0xE0
  · rw [he0]
    rfl
  by_cases hed : b.toNat = 0xED
  · rw [hed]
    rfl
  rw [if_neg he0, if_neg hed, if_pos h', if_neg he0, if_neg hed]

theorem first_of_four (h : 0xF0 ≤ b.toNat) (h' : b.toNat < 0xF5) :
    first read b = ⟨read, some ⟨b.toNat - 0xF0, 2, if b.toNat = 0xF0 then 0x90 else 0x80,
      if b.toNat = 0xF4 then 0x8F else 0xBF⟩⟩ := by
  rw [first, if_neg (by omega), if_neg (by omega), if_neg (by omega), if_neg (by omega),
    if_neg (by omega), if_neg (by omega)]
  by_cases hf0 : b.toNat = 0xF0
  · rw [hf0]
    rfl
  by_cases hf4 : b.toNat = 0xF4
  · rw [hf4]
    rfl
  rw [if_neg hf0, if_pos (by omega), if_neg hf0, if_neg hf4]

theorem first_of_ill (h : 0x80 ≤ b.toNat) (h' : b.toNat < 0xC2 ∨ 0xF5 ≤ b.toNat) :
    first read b = ⟨none :: read, none⟩ := by
  rw [first, if_neg (by omega)]
  rcases h' with h' | h'
  · rw [if_pos h']
  · rw [if_neg (by omega), if_neg (by omega), if_neg (by omega), if_neg (by omega),
      if_neg (by omega), if_neg (by omega), if_neg (by omega), if_neg (by omega)]

end First

/-! ## The bytes behind it -/

section Push

variable {b low high : UInt8} {bits : Nat} (read : List (Option Char))

theorem push_last (h : low.toNat ≤ b.toNat) (h' : b.toNat ≤ high.toNat) :
    State.push ⟨read, some ⟨bits, 0, low, high⟩⟩ b =
      ⟨some (Char.ofNat (bits * 64 + (b.toNat - 0x80))) :: read, none⟩ := by
  simp [State.push, UInt8.le_iff_toNat_le, h, h']

theorem push_more (h : low.toNat ≤ b.toNat) (h' : b.toNat ≤ high.toNat) (more : Nat) :
    State.push ⟨read, some ⟨bits, more + 1, low, high⟩⟩ b =
      ⟨read, some ⟨bits * 64 + (b.toNat - 0x80), more, 0x80, 0xBF⟩⟩ := by
  simp [State.push, UInt8.le_iff_toNat_le, h, h']

theorem push_unfit (h : b.toNat < low.toNat ∨ high.toNat < b.toNat) (more : Nat) :
    State.push ⟨read, some ⟨bits, more, low, high⟩⟩ b = first (none :: read) b := by
  have hunfit : ¬(low ≤ b && b ≤ high) = true := by
    simp only [Bool.and_eq_true, decide_eq_true_eq, UInt8.le_iff_toNat_le]
    omega
  rw [State.push]
  exact if_neg hunfit

end Push

/-! ## What was written is read back -/

theorem toNat_byte {n : Nat} (h : n < 0x100) : (UInt8.ofNat n).toNat = n :=
  UInt8.toNat_ofNat_of_lt' h

section Written

variable {k : Nat} {low high : UInt8}

/-- A byte with the next six bits of a character, its number being one that may come there. -/
theorem push_next (read : List (Option Char)) (bits more : Nat) (hlow : low.toNat ≤ k + 0x80)
    (hhigh : k + 0x80 ≤ high.toNat) :
    State.push ⟨read, some ⟨bits, more + 1, low, high⟩⟩ (UInt8.ofNat (k + 0x80)) =
      ⟨read, some ⟨bits * 64 + k, more, 0x80, 0xBF⟩⟩ := by
  have hb := toNat_byte (n := k + 0x80) (Nat.lt_of_le_of_lt hhigh high.toNat_lt)
  rw [push_more read (by rwa [hb]) (by rwa [hb]), hb, Nat.add_sub_cancel]

/-- A byte with the last six bits of a character. -/
theorem push_final (read : List (Option Char)) (bits : Nat) (hk : k < 0x40) :
    State.push ⟨read, some ⟨bits, 0, 0x80, 0xBF⟩⟩ (UInt8.ofNat (k + 0x80)) =
      ⟨some (Char.ofNat (bits * 64 + k)) :: read, none⟩ := by
  have hb := toNat_byte (n := k + 0x80) (by omega)
  have hlow : (0x80 : UInt8).toNat ≤ k + 0x80 := Nat.le_add_left _ _
  have hhigh : k + 0x80 ≤ (0xBF : UInt8).toNat := Nat.add_le_add_right (Nat.le_of_lt_succ hk) _
  rw [push_last read (by rwa [hb]) (by rwa [hb]), hb, Nat.add_sub_cancel]

end Written

/-! Each number of bytes carries the bits of the numbers that need so many. -/

section Widths

variable {v : Nat} (read : List (Option Char))

theorem read_one (h : v < 0x80) :
    first read (UInt8.ofNat v) = ⟨some (Char.ofNat v) :: read, none⟩ := by
  have hb := toNat_byte (n := v) (by omega)
  rw [first_of_ascii read (by rwa [hb]), hb]

theorem read_two (h : 0x80 ≤ v) (h' : v < 0x800) :
    (first read (UInt8.ofNat (v / 64 % 0x20 + 0xC0))).push (UInt8.ofNat (v % 0x40 + 0x80)) =
      ⟨some (Char.ofNat v) :: read, none⟩ := by
  have hb := toNat_byte (n := v / 64 % 0x20 + 0xC0) (by omega)
  have hv : (v / 64 % 0x20 + 0xC0 - 0xC0) * 64 + v % 0x40 = v := by omega
  rw [first_of_two read (by omega) (by omega), hb, push_final read _ (by omega), hv]

theorem read_three (h : 0x800 ≤ v) (h' : v < 0xD800 ∨ 0xDFFF < v ∧ v < 0x10000) :
    ((first read (UInt8.ofNat (v / 4096 % 0x10 + 0xE0))).push
      (UInt8.ofNat (v / 64 % 0x40 + 0x80))).push (UInt8.ofNat (v % 0x40 + 0x80)) =
        ⟨some (Char.ofNat v) :: read, none⟩ := by
  have hb := toNat_byte (n := v / 4096 % 0x10 + 0xE0) (by omega)
  have hv : ((v / 4096 % 0x10 + 0xE0 - 0xE0) * 64 + v / 64 % 0x40) * 64 + v % 0x40 = v := by
    omega
  -- no number that two bytes could carry, and none of a surrogate
  have hlow : (if v / 4096 % 0x10 + 0xE0 = 0xE0 then 0xA0 else 0x80 : UInt8).toNat ≤
      v / 64 % 0x40 + 0x80 := by
    split
    · show 0xA0 ≤ _
      omega
    · exact Nat.le_add_left _ _
  have hhigh : v / 64 % 0x40 + 0x80 ≤
      (if v / 4096 % 0x10 + 0xE0 = 0xED then 0x9F else 0xBF : UInt8).toNat := by
    split
    · show _ ≤ 0x9F
      omega
    · show _ ≤ 0xBF
      omega
  rw [first_of_three read (by omega) (by omega), hb, push_next read _ _ hlow hhigh,
    push_final read _ (by omega), hv]

theorem read_four (h : 0x10000 ≤ v) (h' : v < 0x110000) :
    (((first read (UInt8.ofNat (v / 262144 % 0x08 + 0xF0))).push
      (UInt8.ofNat (v / 4096 % 0x40 + 0x80))).push (UInt8.ofNat (v / 64 % 0x40 + 0x80))).push
        (UInt8.ofNat (v % 0x40 + 0x80)) = ⟨some (Char.ofNat v) :: read, none⟩ := by
  have hb := toNat_byte (n := v / 262144 % 0x08 + 0xF0) (by omega)
  have hv : (((v / 262144 % 0x08 + 0xF0 - 0xF0) * 64 + v / 4096 % 0x40) * 64 +
      v / 64 % 0x40) * 64 + v % 0x40 = v := by
    omega
  -- no number that three bytes could carry, and none that is too great
  have hlow : (if v / 262144 % 0x08 + 0xF0 = 0xF0 then 0x90 else 0x80 : UInt8).toNat ≤
      v / 4096 % 0x40 + 0x80 := by
    split
    · show 0x90 ≤ _
      omega
    · exact Nat.le_add_left _ _
  have hhigh : v / 4096 % 0x40 + 0x80 ≤
      (if v / 262144 % 0x08 + 0xF0 = 0xF4 then 0x8F else 0xBF : UInt8).toNat := by
    split
    · show _ ≤ 0x8F
      omega
    · show _ ≤ 0xBF
      omega
  have hnext : v / 64 % 0x40 + 0x80 ≤ (0xBF : UInt8).toNat := by
    show _ ≤ 0xBF
    omega
  rw [first_of_four read (by omega) (by omega), hb, push_next read _ _ hlow hhigh,
    push_next read _ _ (Nat.le_add_left _ _) hnext, push_final read _ (by omega), hv]

end Widths

/-- Between two characters, the bytes of a character are read as that character. -/
theorem foldl_push_encodeChar (read : List (Option Char)) (c : Char) :
    (String.utf8EncodeChar c).foldl State.push ⟨read, none⟩ = ⟨some c :: read, none⟩ := by
  have hvalid : c.val.toNat < 0xD800 ∨ 0xDFFF < c.val.toNat ∧ c.val.toNat < 0x110000 := c.valid
  have hchar : Char.ofNat c.val.toNat = c := Char.ofNat_toNat c
  unfold String.utf8EncodeChar
  generalize c.val.toNat = v at hvalid hchar
  subst hchar
  simp only
  split
  · exact read_one read (by omega)
  split
  · rw [List.foldl_cons, List.foldl_cons, List.foldl_nil]
    exact read_two read (by omega) (by omega)
  split
  · rw [List.foldl_cons, List.foldl_cons, List.foldl_cons, List.foldl_nil]
    exact read_three read (by omega) (by omega)
  · rw [List.foldl_cons, List.foldl_cons, List.foldl_cons, List.foldl_cons, List.foldl_nil]
    exact read_four read (by omega) (by omega)

theorem foldl_push_encode (read : List (Option Char)) (text : List Char) :
    (encode text).foldl State.push ⟨read, none⟩ = ⟨(text.map some).reverse ++ read, none⟩ := by
  induction text generalizing read with
  | nil => rfl
  | cons c text ih =>
    rw [encode, List.flatMap_cons, List.foldl_append, foldl_push_encodeChar, ← encode, ih]
    simp

theorem decode_encode (text : List Char) : decode (encode text) = text.map some := by
  rw [decode, State.start, foldl_push_encode, List.append_nil, State.finish, List.reverse_reverse]

/-- **What was written is read back, with nothing lost and nothing added.** -/
theorem decodeLossy_encode (text : List Char) : decodeLossy (encode text) = text := by
  simp [decodeLossy, decode_encode, Function.comp_def]

/-! ## Begun characters -/

/--
Whatever the bytes to come are, the first of them between `low` and `high`, what they complete is
a character beyond ASCII.
-/
def Completes : (more : Nat) → (low high bits : Nat) → Prop
  | 0, low, high, bits => ∀ n, low ≤ n → n ≤ high →
    0x80 ≤ bits * 64 + (n - 0x80) ∧ (bits * 64 + (n - 0x80)).isValidChar
  | more + 1, low, high, bits => ∀ n, low ≤ n → n ≤ high →
    Completes more 0x80 0xBF (bits * 64 + (n - 0x80))

/-- A character begun by bytes that may begin one. -/
structure Begun.Sound (c : Begun) : Prop where
  low : 0x80 ≤ c.low.toNat
  completes : Completes c.more c.low.toNat c.high.toNat c.bits

/-- What was begun was begun by bytes that may begin a character. -/
def State.Sound (s : State) : Prop := ∀ c ∈ s.begun, c.Sound

/-- The characters read so far, last first, one that was only begun being ill-formed. -/
def State.closed (s : State) : List (Option Char) :=
  match s.begun with
  | none => s.read
  | some _ => none :: s.read

theorem State.finish_eq (s : State) : s.finish = s.closed.reverse := by
  unfold finish closed
  cases s.begun <;> rfl

theorem State.sound_of_none (read : List (Option Char)) : State.Sound ⟨read, none⟩ := by
  rintro c ⟨⟩

theorem State.sound_of_some {c : Begun} (h : c.Sound) (read : List (Option Char)) :
    State.Sound ⟨read, some c⟩ := by
  intro d hd
  rwa [← Option.mem_some_iff.mp hd]

section Completes

variable {n : Nat}

theorem completes_two (h : 0xC2 ≤ n ∧ n < 0xE0) : Completes 0 0x80 0xBF (n - 0xC0) := by
  intro x _ _
  have hvalid : (n - 0xC0) * 64 + (x - 0x80) < 0xD800 := by omega
  exact ⟨by omega, .inl hvalid⟩

/-- The least second byte keeps out numbers for fewer bytes, the greatest one surrogates. -/
theorem completes_three (h : 0xE0 ≤ n ∧ n < 0xF0) :
    Completes 1 (if n = 0xE0 then 0xA0 else 0x80) (if n = 0xED then 0x9F else 0xBF)
      (n - 0xE0) := by
  intro x hlow hhigh y _ _
  unfold Nat.isValidChar
  split at hlow <;> split at hhigh <;> omega

/-- The least second byte keeps out numbers for fewer bytes, the greatest one those too great. -/
theorem completes_four (h : 0xF0 ≤ n ∧ n < 0xF5) :
    Completes 2 (if n = 0xF0 then 0x90 else 0x80) (if n = 0xF4 then 0x8F else 0xBF)
      (n - 0xF0) := by
  intro x hlow hhigh y _ _ z _ _
  unfold Nat.isValidChar
  split at hlow <;> split at hhigh <;> omega

end Completes

theorem sound_first (read : List (Option Char)) (b : UInt8) : (first read b).Sound := by
  by_cases hascii : b.toNat < 0x80
  · rw [first_of_ascii read hascii]
    exact State.sound_of_none _
  by_cases htwo : 0xC2 ≤ b.toNat ∧ b.toNat < 0xE0
  · rw [first_of_two read htwo.1 htwo.2]
    exact State.sound_of_some ⟨Nat.le_refl _, completes_two htwo⟩ read
  by_cases hthree : 0xE0 ≤ b.toNat ∧ b.toNat < 0xF0
  · rw [first_of_three read hthree.1 hthree.2]
    refine State.sound_of_some ⟨?_, ?_⟩ read
    · show 0x80 ≤ UInt8.toNat (ite _ _ _)
      split <;> decide
    · show Completes 1 (UInt8.toNat _) (UInt8.toNat _) _
      rw [apply_ite UInt8.toNat, apply_ite UInt8.toNat]
      exact completes_three hthree
  by_cases hfour : 0xF0 ≤ b.toNat ∧ b.toNat < 0xF5
  · rw [first_of_four read hfour.1 hfour.2]
    refine State.sound_of_some ⟨?_, ?_⟩ read
    · show 0x80 ≤ UInt8.toNat (ite _ _ _)
      split <;> decide
    · show Completes 2 (UInt8.toNat _) (UInt8.toNat _) _
      rw [apply_ite UInt8.toNat, apply_ite UInt8.toNat]
      exact completes_four hfour
  · rw [first_of_ill read (by omega) (by omega)]
    exact State.sound_of_none _

theorem closed_first {b : UInt8} (hb : 0x80 ≤ b.toNat) (read : List (Option Char)) :
    (first read b).closed = none :: read := by
  by_cases htwo : 0xC2 ≤ b.toNat ∧ b.toNat < 0xE0
  · rw [first_of_two read htwo.1 htwo.2, State.closed]
  by_cases hthree : 0xE0 ≤ b.toNat ∧ b.toNat < 0xF0
  · rw [first_of_three read hthree.1 hthree.2, State.closed]
  by_cases hfour : 0xF0 ≤ b.toNat ∧ b.toNat < 0xF5
  · rw [first_of_four read hfour.1 hfour.2, State.closed]
  · rw [first_of_ill read hb (by omega), State.closed]

/-! ## Which characters a byte gives -/

/-- No character of ASCII: one beyond it, or an ill-formed stretch. -/
def IsForeign (o : Option Char) : Prop := ∀ c ∈ o, 0x80 ≤ c.toNat

theorem isForeign_none : IsForeign none := by
  rintro c ⟨⟩

theorem toNat_ofNat {n : Nat} (h : n.isValidChar) : (Char.ofNat n).toNat = n := by
  rw [Char.ofNat, dif_pos h]
  rfl

theorem isForeign_ofNat {n : Nat} (hn : 0x80 ≤ n) (h : n.isValidChar) :
    IsForeign (some (Char.ofNat n)) := by
  rintro c ⟨⟩
  rwa [toNat_ofNat h]

namespace State

variable {s : State} {b : UInt8}

/-- **A byte of ASCII is a character of its own, whatever was begun before it.** -/
theorem push_of_ascii (hs : s.Sound) (hb : b.toNat < 0x80) :
    s.push b = ⟨some (Char.ofNat b.toNat) :: s.closed, none⟩ := by
  obtain ⟨read, begun⟩ := s
  cases begun with
  | none => exact first_of_ascii read hb
  | some c =>
    have hunfit : b.toNat < c.low.toNat := Nat.lt_of_lt_of_le hb (hs c rfl).low
    rw [push_unfit read (.inl hunfit), first_of_ascii _ hb]
    rfl

/-- The other bytes begin, continue or complete characters beyond ASCII. -/
theorem push_of_foreign (hs : s.Sound) (hb : 0x80 ≤ b.toNat) :
    (s.push b).Sound ∧ ∃ o added, (s.push b).closed = o :: (added ++ s.read) ∧
      ∀ x ∈ o :: added, IsForeign x := by
  obtain ⟨read, begun⟩ := s
  cases begun with
  | none =>
    exact ⟨sound_first read b, none, [], closed_first hb read, by simpa using isForeign_none⟩
  | some c =>
    obtain ⟨bits, more, low, high⟩ := c
    obtain ⟨-, hcompletes⟩ := hs _ rfl
    by_cases hfit : low.toNat ≤ b.toNat ∧ b.toNat ≤ high.toNat
    · cases more with
      | zero =>
        rw [push_last read hfit.1 hfit.2]
        obtain ⟨hbeyond, hvalid⟩ := hcompletes b.toNat hfit.1 hfit.2
        exact ⟨sound_of_none _, _, [], rfl, by simpa using isForeign_ofNat hbeyond hvalid⟩
      | succ more =>
        rw [push_more read hfit.1 hfit.2]
        have hsound : Begun.Sound ⟨bits * 64 + (b.toNat - 0x80), more, 0x80, 0xBF⟩ :=
          ⟨Nat.le_refl _, hcompletes b.toNat hfit.1 hfit.2⟩
        exact ⟨sound_of_some hsound read, none, [], rfl, by simpa using isForeign_none⟩
    · rw [push_unfit read (by omega)]
      exact ⟨sound_first _ b, none, [none], closed_first hb _, by simpa using isForeign_none⟩

theorem sound_push (hs : s.Sound) (b : UInt8) : (s.push b).Sound := by
  by_cases hb : b.toNat < 0x80
  · rw [push_of_ascii hs hb]
    exact sound_of_none _
  · exact (push_of_foreign hs (Nat.not_lt.mp hb)).1

theorem sound_foldl (hs : s.Sound) (bytes : List UInt8) : (bytes.foldl push s).Sound := by
  induction bytes generalizing s with
  | nil => exact hs
  | cons b bytes ih => exact ih (sound_push hs b)

end State

/-! ## Bytes behind a byte of ASCII -/

namespace State

/-- The same state with characters read before. -/
def behind (s : State) (earlier : List (Option Char)) : State := ⟨s.read ++ earlier, s.begun⟩

theorem first_behind (read earlier : List (Option Char)) (b : UInt8) :
    first (read ++ earlier) b = (first read b).behind earlier := by
  simp only [first, apply_ite (behind · earlier)]
  rfl

theorem push_behind (s : State) (earlier : List (Option Char)) (b : UInt8) :
    (s.behind earlier).push b = (s.push b).behind earlier := by
  obtain ⟨read, begun⟩ := s
  cases begun with
  | none => exact first_behind read earlier b
  | some c =>
    simp only [behind, push]
    split
    · cases c.more <;> rfl
    · exact first_behind (none :: read) earlier b

theorem foldl_push_behind (s : State) (earlier : List (Option Char)) (bytes : List UInt8) :
    bytes.foldl push (s.behind earlier) = (bytes.foldl push s).behind earlier := by
  induction bytes generalizing s with
  | nil => rfl
  | cons b bytes ih => rw [List.foldl_cons, push_behind, ih, List.foldl_cons]

theorem closed_behind (s : State) (earlier : List (Option Char)) :
    (s.behind earlier).closed = s.closed ++ earlier := by
  obtain ⟨read, begun⟩ := s
  cases begun <;> rfl

end State

/-- The state when some bytes were read. -/
def reached (bytes : List UInt8) : State := bytes.foldl State.push .start

theorem sound_reached (bytes : List UInt8) : (reached bytes).Sound :=
  State.sound_foldl (State.sound_of_none []) bytes

theorem reached_concat (bytes : List UInt8) (b : UInt8) :
    reached (bytes ++ [b]) = (reached bytes).push b := by
  rw [reached, List.foldl_append]
  rfl

theorem decode_eq (bytes : List UInt8) : decode bytes = (reached bytes).closed.reverse :=
  State.finish_eq _

theorem decode_append_cons (bytes : List UInt8) {b : UInt8} (hb : b.toNat < 0x80)
    (rest : List UInt8) :
    decode (bytes ++ b :: rest) =
      decode bytes ++ some (Char.ofNat b.toNat) :: decode rest := by
  have hstart : (⟨some (Char.ofNat b.toNat) :: (reached bytes).closed, none⟩ : State) =
      State.start.behind (some (Char.ofNat b.toNat) :: (reached bytes).closed) := rfl
  have hreached : reached (bytes ++ b :: rest) =
      (reached rest).behind (some (Char.ofNat b.toNat) :: (reached bytes).closed) := by
    rw [reached, List.foldl_append, List.foldl_cons, ← reached,
      State.push_of_ascii (sound_reached bytes) hb, hstart, State.foldl_push_behind]
    rfl
  simp only [decode_eq, hreached, State.closed_behind, List.reverse_append, List.reverse_cons,
    List.append_assoc, List.singleton_append]

/-- **Bytes are read separately on the two sides of a byte of ASCII.** -/
theorem decodeLossy_append_cons (bytes : List UInt8) {b : UInt8} (hb : b.toNat < 0x80)
    (rest : List UInt8) :
    decodeLossy (bytes ++ b :: rest) =
      decodeLossy bytes ++ Char.ofNat b.toNat :: decodeLossy rest := by
  simp only [decodeLossy, decode_append_cons bytes hb, List.map_append, List.map_cons,
    Option.getD_some]

/-! ## Where characters of ASCII come from -/

theorem State.mem_closed_of_mem_read {s : State} {o : Option Char} (h : o ∈ s.read) :
    o ∈ s.closed := by
  obtain ⟨read, begun⟩ := s
  cases begun with
  | none => exact h
  | some c => exact List.mem_cons_of_mem _ h

theorem mem_closed_reached {bytes : List UInt8} {o : Option Char} (h : o ∈ (reached bytes).closed) :
    IsForeign o ∨ ∃ b ∈ bytes, b.toNat < 0x80 ∧ o = some (Char.ofNat b.toNat) := by
  induction bytes using List.reverseRecOn with
  | nil => cases h
  | append_singleton bytes b ih =>
    have hgrow : o ∈ (reached bytes).closed → IsForeign o ∨
        ∃ b' ∈ bytes ++ [b], b'.toNat < 0x80 ∧ o = some (Char.ofNat b'.toNat) := by
      intro hmem
      rcases ih hmem with hforeign | ⟨b', hb', hascii⟩
      · exact .inl hforeign
      · exact .inr ⟨b', List.mem_append_left _ hb', hascii⟩
    rw [reached_concat] at h
    by_cases hb : b.toNat < 0x80
    · rw [State.push_of_ascii (sound_reached bytes) hb] at h
      rcases List.mem_cons.mp h with rfl | h
      · exact .inr ⟨b, List.mem_append_right _ List.mem_cons_self, hb, rfl⟩
      · exact hgrow h
    · obtain ⟨-, first, added, hclosed, hforeign⟩ :=
        State.push_of_foreign (sound_reached bytes) (Nat.not_lt.mp hb)
      rw [hclosed, ← List.cons_append] at h
      rcases List.mem_append.mp h with h | h
      · exact .inl (hforeign o h)
      · exact hgrow (State.mem_closed_of_mem_read h)

theorem le_toNat_getD {o : Option Char} (h : IsForeign o) :
    0x80 ≤ (o.getD replacement).toNat := by
  cases o with
  | none => decide
  | some c => exact h c rfl

/-- A character of ASCII among those read comes from its own byte. -/
theorem mem_of_mem_decodeLossy {bytes : List UInt8} {c : Char} (h : c ∈ decodeLossy bytes)
    (hc : c.toNat < 0x80) : UInt8.ofNat c.toNat ∈ bytes := by
  obtain ⟨o, ho, rfl⟩ := List.mem_map.mp h
  rw [decode_eq, List.mem_reverse] at ho
  rcases mem_closed_reached ho with hforeign | ⟨b, hb, hascii, rfl⟩
  · exact absurd (le_toNat_getD hforeign) (Nat.not_le.mpr hc)
  · have hvalid : b.toNat.isValidChar := .inl (by omega)
    rwa [Option.getD_some, toNat_ofNat hvalid, UInt8.ofNat_toNat]

/-- Bytes that end beyond ASCII are read as characters that end beyond ASCII. -/
theorem decodeLossy_concat_of_foreign (bytes : List UInt8) {b : UInt8} (hb : 0x80 ≤ b.toNat) :
    ∃ front c, decodeLossy (bytes ++ [b]) = front ++ [c] ∧ 0x80 ≤ c.toNat := by
  obtain ⟨-, last, added, hclosed, hforeign⟩ := State.push_of_foreign (sound_reached bytes) hb
  refine ⟨((added ++ (reached bytes).read).reverse).map (·.getD replacement),
    last.getD replacement, ?_, le_toNat_getD (hforeign last List.mem_cons_self)⟩
  rw [decodeLossy, decode_eq, reached_concat, hclosed, List.reverse_cons, List.map_append,
    List.map_singleton]

end Provisioner.Text.Utf8
