import Provisioner.Proofs.Log.Splitter
import Provisioner.Proofs.Text.Utf8

/-!
# Decoding lines and cutting decoded text

Each line of a stream is decoded by itself. That comes to the same as decoding the whole stream
and cutting the text, ill-formed stretches included: the bytes at which a stream is cut are of
ASCII, and no stretch reaches over such a byte.
-/

namespace Provisioner.Splitter

open Text

theorem ne_of_toNat_ne {b : UInt8} {c : Char} (hb : b.toNat < 0x80) (h : b.toNat ≠ c.toNat) :
    Char.ofNat b.toNat ≠ c := by
  rintro rfl
  exact h (Utf8.toNat_ofNat (.inl (by omega))).symm

/-- A carriage return at the end of a line is one before decoding and after. -/
theorem withoutFinal_decodeLossy (line : List UInt8) :
    withoutFinal '\r' (Utf8.decodeLossy line) =
      Utf8.decodeLossy (withoutFinal carriageReturn line) := by
  rcases List.eq_nil_or_concat line with rfl | ⟨front, b, rfl⟩
  · rfl
  rw [List.concat_eq_append]
  by_cases hb : b.toNat < 0x80
  · have hread : Utf8.decodeLossy (front ++ [b]) =
        Utf8.decodeLossy front ++ [Char.ofNat b.toNat] := Utf8.decodeLossy_append_cons front hb []
    by_cases hreturn : b = carriageReturn
    · subst hreturn
      rw [hread, withoutFinal_concat]
      exact withoutFinal_concat '\r' _
    · have hnat : b.toNat ≠ '\r'.toNat := fun h => hreturn (UInt8.toNat_inj.mp h)
      rw [withoutFinal_concat_of_ne hreturn, hread,
        withoutFinal_concat_of_ne (ne_of_toNat_ne hb hnat)]
  · obtain ⟨chars, c, hread, hc⟩ :=
      Utf8.decodeLossy_concat_of_foreign front (Nat.not_lt.mp hb)
    have hreturn : b ≠ carriageReturn := by
      rintro rfl
      exact hb (by decide)
    have hchar : c ≠ '\r' := by
      rintro rfl
      exact absurd hc (by decide)
    rw [withoutFinal_concat_of_ne hreturn, hread, withoutFinal_concat_of_ne hchar]

theorem decodeLossy_eq_nil_iff (bytes : List UInt8) : Utf8.decodeLossy bytes = [] ↔ bytes = [] := by
  constructor
  · intro h
    rcases List.eq_nil_or_concat bytes with rfl | ⟨front, b, rfl⟩
    · rfl
    rw [List.concat_eq_append] at h
    by_cases hb : b.toNat < 0x80
    · rw [Utf8.decodeLossy_append_cons front hb []] at h
      exact absurd h (by simp)
    · obtain ⟨chars, c, hread, -⟩ := Utf8.decodeLossy_concat_of_foreign front (Nat.not_lt.mp hb)
      rw [hread] at h
      exact absurd h (by simp)
  · rintro rfl
    rfl

/-- A text is cut at its line feeds before decoding as after. -/
theorem splitOn_decodeLossy (bytes : List UInt8) :
    (Utf8.decodeLossy bytes).splitOn '\n' = (bytes.splitOn lineFeed).map Utf8.decodeLossy := by
  induction hlength : bytes.length using Nat.strongRecOn generalizing bytes with
  | _ n ih =>
    by_cases h : lineFeed ∈ bytes
    · obtain ⟨front, rest, rfl⟩ := List.append_of_mem h
      have hread : Utf8.decodeLossy (front ++ lineFeed :: rest) =
          Utf8.decodeLossy front ++ '\n' :: Utf8.decodeLossy rest :=
        Utf8.decodeLossy_append_cons front (by decide) rest
      rw [List.length_append, List.length_cons] at hlength
      rw [hread, List.splitOn_append_cons_self, List.splitOn_append_cons_self, List.map_append,
        ih front.length (by omega) front rfl, ih rest.length (by omega) rest rfl]
    · have hchar : '\n' ∉ Utf8.decodeLossy bytes := fun hmem =>
        h (Utf8.mem_of_mem_decodeLossy hmem (by decide))
      rw [List.splitOn_eq_singleton h, List.splitOn_eq_singleton hchar, List.map_singleton]

theorem cutLines_decodeLossy (bytes : List UInt8) :
    cutLines '\n' '\r' (Utf8.decodeLossy bytes) =
      (cutLines lineFeed carriageReturn bytes).map Utf8.decodeLossy := by
  have hline : withoutFinal '\r' ∘ Utf8.decodeLossy =
      Utf8.decodeLossy ∘ withoutFinal carriageReturn := funext withoutFinal_decodeLossy
  rw [cutLines, cutLines, splitOn_decodeLossy, withoutFinal_map decodeLossy_eq_nil_iff,
    List.map_map, List.map_map, hline]

/-- The lines of a stream are those of its text. -/
theorem linesOf_eq_cutLines (bytes : List UInt8) :
    linesOf bytes = (cutLines '\n' '\r' (Utf8.decodeLossy bytes)).map String.ofList := by
  rw [linesOf, cutLines_decodeLossy, List.map_map]
  rfl

/-- Whether a character ends lines. -/
def endsLine (c : Char) : Bool := c == '\n' || c == '\r'

/--
**Decoding line by line is decoding the whole.** However a stream comes in chunks, the lines given
for it are those of its decoded text. If its bytes are those of a text, that is the text decoded,
and no character of it is lost and none is added in the lines, ends of lines apart.
-/
theorem lines_of_decoded (chunks : List (List UInt8)) :
    readAll chunks = (cutLines '\n' '\r' (Utf8.decodeLossy chunks.flatten)).map String.ofList ∧
      ∀ text, chunks.flatten = Utf8.encode text → Utf8.decodeLossy chunks.flatten = text ∧
        ((readAll chunks).flatMap String.toList).filter (!endsLine ·) =
          text.filter (!endsLine ·) := by
  have hlines : readAll chunks =
      (cutLines '\n' '\r' (Utf8.decodeLossy chunks.flatten)).map String.ofList := by
    rw [readAll_eq, linesOf_eq_cutLines]
  refine ⟨hlines, ?_⟩
  intro text htext
  have hdecoded : Utf8.decodeLossy chunks.flatten = text := by
    rw [htext, Utf8.decodeLossy_encode]
  refine ⟨hdecoded, ?_⟩
  have hchars : (readAll chunks).flatMap String.toList = (cutLines '\n' '\r' text).flatten := by
    rw [hlines, hdecoded, List.flatMap_map]
    simp
  rw [hchars]
  exact filter_flatten_cutLines rfl rfl text

/-- A character and the end of a line that two chunks share. -/
theorem lines_of_decoded_sharedBytes :
    [[0x63, 0xC3], [0xA9, 0x0D], [0x0A, 0x78]].flatten = Utf8.encode "cé\r\nx".toList ∧
      readAll [[0x63, 0xC3], [0xA9, 0x0D], [0x0A, 0x78]] = ["cé", "x"] ∧
      Utf8.decodeLossy [[0x63, 0xC3], [0xA9, 0x0D], [0x0A, 0x78]].flatten = "cé\r\nx".toList ∧
      ((readAll [[0x63, 0xC3], [0xA9, 0x0D], [0x0A, 0x78]]).flatMap String.toList).filter
        (!endsLine ·) = "céx".toList := by
  obtain ⟨hlines, htext⟩ := lines_of_decoded [[0x63, 0xC3], [0xA9, 0x0D], [0x0A, 0x78]]
  have hencoded :
      [[0x63, 0xC3], [0xA9, 0x0D], [0x0A, 0x78]].flatten = Utf8.encode "cé\r\nx".toList := by
    decide +kernel
  obtain ⟨hdecoded, hchars⟩ := htext _ hencoded
  refine ⟨hencoded, ?_, hdecoded, ?_⟩
  · rw [hlines, hdecoded]
    decide +kernel
  · rw [hchars]
    decide +kernel

end Provisioner.Splitter
