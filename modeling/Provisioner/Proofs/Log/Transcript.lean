import Provisioner.Log.Transcript
import Provisioner.Proofs.Log.Marker
import Provisioner.Proofs.Text.Size

/-!
# What a bounded transcript keeps

A transcript is what is left of the whole output after its beginning was dropped, and what is left
is never much less than half of the limit (`Keeps`). A character has at most four bytes, so the
boundary at which a transcript is cut is at most three bytes behind the byte at which it should be.

The wallet's address is therefore extracted from the transcript as from the whole output, if the
line that holds it is not further from the end than that.
-/

namespace Provisioner.Transcript

open Text

/-- How many bytes are left at least when older text is dropped. -/
def floor : Nat := kept - 3

/-! ## Where a text is cut -/

/--
The first boundary between characters at the byte `n` or behind it, if one is found by looking at so
many bytes one after the other.
-/
def boundaryFrom? (text : String) : Nat → Nat → Option Nat
  | 0, _ => none
  | looks + 1, n =>
    if String.Pos.Raw.isValid text ⟨n⟩ then some n else boundaryFrom? text looks (n + 1)

/-- A boundary with none between it and `n` is found if it is near enough. -/
theorem boundaryFrom?_eq_some {text : String} {looks n cut : Nat}
    (hcut : String.Pos.Raw.IsValid text ⟨cut⟩) (hle : n ≤ cut) (hlt : cut < n + looks)
    (hfirst : ∀ m, n ≤ m → m < cut → ¬String.Pos.Raw.IsValid text ⟨m⟩) :
    boundaryFrom? text looks n = some cut := by
  induction looks generalizing n with
  | zero => omega
  | succ looks ih =>
    rw [boundaryFrom?]
    by_cases h : n = cut
    · rw [if_pos (String.Pos.Raw.isValid_eq_true_iff.mpr (h ▸ hcut)), h]
    · have hn : ¬String.Pos.Raw.IsValid text ⟨n⟩ := hfirst n (Nat.le_refl n) (by omega)
      rw [if_neg (by rwa [String.Pos.Raw.isValid_eq_true_iff])]
      exact ih (by omega) (by omega) fun m hm => hfirst m (by omega)

/-- What `dropBytes` leaves stands behind the first boundary that is far enough. -/
theorem exists_dropBytes {n : Nat} {text : List Char} (h : n ≤ size text) :
    ∃ front, text = front ++ dropBytes n text ∧ n ≤ size front ∧ size front < n + 4 ∧
      ∀ front' rest, text = front' ++ rest → n ≤ size front' → size front ≤ size front' := by
  induction text generalizing n with
  | nil =>
    obtain rfl : n = 0 := Nat.le_zero.mp h
    exact ⟨[], rfl, Nat.le_refl _, by decide, fun _ _ _ _ => Nat.zero_le _⟩
  | cons c text ih =>
    have hc := c.utf8Size_le_four
    cases n with
    | zero => exact ⟨[], rfl, Nat.le_refl _, by decide, fun _ _ _ _ => Nat.zero_le _⟩
    | succ n =>
      rw [size_cons] at h
      obtain ⟨front, hfront, hle, hlt, hfirst⟩ := ih (n := n + 1 - c.utf8Size) (by omega)
      refine ⟨c :: front, ?_, ?_, ?_, ?_⟩
      · rw [dropBytes, List.cons_append, ← hfront]
      · rw [size_cons]
        omega
      · have hnone := hfirst [] text rfl
        rw [size_nil] at hnone
        rw [size_cons]
        omega
      · intro front' rest hsplit hfront'
        cases front' with
        | nil => simp at hfront'
        | cons d front' =>
          obtain ⟨rfl, htext⟩ := List.cons.inj hsplit
          rw [size_cons] at hfront'
          rw [size_cons, size_cons]
          exact Nat.add_le_add_left (hfirst front' rest htext (by omega)) _

/-- The boundary at which `dropBytes` cuts a text is found by looking at no more than four bytes. -/
theorem exists_cut (text : String) (n : Nat) (hn : n ≤ text.utf8ByteSize) :
    ∃ front rest, text = front ++ rest ∧ rest = String.ofList (dropBytes n text.toList) ∧
      boundaryFrom? text 4 n = some front.utf8ByteSize ∧
      n ≤ front.utf8ByteSize ∧ front.utf8ByteSize < n + 4 := by
  have hsize : n ≤ size text.toList := by rwa [size_toList]
  obtain ⟨front, hsplit, hle, hlt, hfirst⟩ := exists_dropBytes hsize
  have htext : text = String.ofList front ++ String.ofList (dropBytes n text.toList) := by
    rw [← String.ofList_append, ← hsplit, String.ofList_toList]
  refine ⟨_, _, htext, rfl, ?_, hle, hlt⟩
  refine boundaryFrom?_eq_some ?_ hle hlt ?_
  · exact String.Pos.Raw.isValid_iff_exists_append.mpr ⟨_, _, htext, rfl⟩
  · intro m hm hlt' hvalid
    obtain ⟨front', rest, hsplit', hm'⟩ := String.Pos.Raw.isValid_iff_exists_append.mp hvalid
    obtain rfl : m = front'.utf8ByteSize := congrArg String.Pos.Raw.byteIdx hm'
    have hshorter := hfirst front'.toList rest.toList (by rw [hsplit', String.toList_append])
    rw [size_toList] at hshorter
    exact absurd (hshorter hm) (Nat.not_le.mpr hlt')

/-! ## What is kept of the output -/

theorem limit_eq : limit = 4194304 := rfl

theorem kept_eq : kept = 2097152 := rfl

theorem floor_eq : floor = 2097149 := rfl

/-- What a transcript keeps of the output so far. -/
structure Keeps (output transcript : String) : Prop where
  /-- Only the beginning of the output is missing. -/
  suffix : ∃ dropped, output = dropped ++ transcript
  le_limit : transcript.utf8ByteSize ≤ limit
  /-- If anything is missing, the output is too large and much of it is left. -/
  eq_or_le : transcript = output ∨ limit < output.utf8ByteSize ∧ floor ≤ transcript.utf8ByteSize

theorem keeps_nil : Keeps "" "" := ⟨⟨"", rfl⟩, Nat.zero_le _, .inl rfl⟩

theorem Keeps.append {output transcript : String} (h : Keeps output transcript) (line : String) :
    Keeps (output ++ (line ++ "\n")) (append transcript line) := by
  obtain ⟨⟨dropped, hdropped⟩, -, hkept⟩ := h
  have hmore : output ++ (line ++ "\n") = dropped ++ (transcript ++ (line ++ "\n")) := by
    rw [hdropped, String.append_assoc]
  have hle : (transcript ++ (line ++ "\n")).utf8ByteSize ≤
      (output ++ (line ++ "\n")).utf8ByteSize := by
    rw [hmore, String.utf8ByteSize_append (s := dropped)]
    omega
  rw [Transcript.append, bounded, String.append_assoc]
  split
  · next hlarge =>
    generalize transcript ++ (line ++ "\n") = text at hlarge hmore hle ⊢
    obtain ⟨front, rest, hsplit, hrest, -, hcut, hcut'⟩ :=
      exists_cut text (text.utf8ByteSize - kept) (Nat.sub_le _ kept)
    have hsum : text.utf8ByteSize = front.utf8ByteSize + rest.utf8ByteSize := by
      rw [hsplit, String.utf8ByteSize_append]
    rw [limit_eq] at hlarge
    rw [kept_eq] at hcut hcut'
    rw [← hrest]
    refine ⟨⟨dropped ++ front, ?_⟩, ?_, .inr ⟨?_, ?_⟩⟩
    · rw [hmore, hsplit, String.append_assoc]
    · rw [limit_eq]
      omega
    · rw [limit_eq]
      omega
    · rw [floor_eq]
      omega
  · next hsmall =>
    refine ⟨⟨dropped, hmore⟩, Nat.not_lt.mp hsmall, ?_⟩
    rcases hkept with rfl | ⟨hlarge, hfloor⟩
    · exact .inl rfl
    · right
      rw [String.utf8ByteSize_append (s := output), String.utf8ByteSize_append (s := transcript)]
      omega

theorem keeps_foldl {output transcript : String} (h : Keeps output transcript)
    (lines : List String) :
    Keeps (output ++ unlines lines) (lines.foldl Transcript.append transcript) := by
  induction lines generalizing output transcript with
  | nil => simpa [unlines] using h
  | cons line lines ih =>
    rw [unlines_cons, ← String.append_assoc]
    exact ih (h.append line)

theorem keeps_ofLines (lines : List String) : Keeps (unlines lines) (ofLines lines) := by
  have h := keeps_foldl keeps_nil lines
  rwa [String.empty_append] at h

/--
**A transcript is a tail of the output.** However many lines there were, only the beginning of the
output is missing, there are never more than four mebibytes, and nothing is missing just when the
whole output has no more than that. Once something is missing, at least half of the limit is left
from then on, three bytes apart. Where a text is cut, a boundary is found at one of the first four
bytes looked at, and not behind the end of the text.
-/
theorem tail_of_output (lines : List String) :
    (∃ dropped, unlines lines = dropped ++ ofLines lines) ∧
    (ofLines lines).utf8ByteSize ≤ 4194304 ∧
    (ofLines lines = unlines lines ↔ (unlines lines).utf8ByteSize ≤ 4194304) ∧
    (ofLines lines = unlines lines ∨
      ∀ later, 2097149 ≤ (ofLines (lines ++ later)).utf8ByteSize) ∧
    ∀ text, ∃ front rest, text = front ++ rest ∧
      boundaryFrom? text 4 (text.utf8ByteSize - 2097152) = some front.utf8ByteSize ∧
      bounded text = if 4194304 < text.utf8ByteSize then rest else text := by
  obtain ⟨hsuffix, hle, hkept⟩ := keeps_ofLines lines
  rw [limit_eq] at hle hkept
  refine ⟨hsuffix, hle, ?_, ?_, ?_⟩
  · constructor
    · intro h
      rwa [← h]
    · intro h
      exact hkept.resolve_right fun hlarge => absurd h (Nat.not_le.mpr hlarge.1)
  · refine hkept.imp_right ?_
    rintro ⟨hlarge, -⟩ later
    obtain ⟨-, hle', hkept'⟩ := keeps_ofLines (lines ++ later)
    rcases hkept' with heq | ⟨-, hfloor⟩
    · rw [heq, unlines_append, String.utf8ByteSize_append, limit_eq] at hle'
      omega
    · exact hfloor
  · intro text
    obtain ⟨front, rest, hsplit, hrest, hcut, -⟩ :=
      exists_cut text (text.utf8ByteSize - kept) (Nat.sub_le _ kept)
    exact ⟨front, rest, hsplit, hcut, by rw [hrest]; rfl⟩

/-! ## The wallet's address -/

open Marker

section

variable {marker line : String} {before : List String}

/-- What stands in front of the first line with a marker does not matter, wherever it is cut. -/
theorem extract_of_suffix (hmarker : '\n' ∉ marker.toList)
    (hbefore : ∀ earlier ∈ before, ¬piece marker <:+: earlier.toList)
    (hline : '\n' ∉ line.toList) (hmem : piece marker <:+: line.toList) (after : List String)
    {front : List Char}
    (hfront : front <:+ (unlines before).toList) :
    extract marker (String.ofList (front ++ (unlines (line :: after)).toList)) =
      extract marker line := by
  obtain ⟨rest, hafter⟩ : ∃ rest, after? (piece marker) line.toList = some rest :=
    Option.isSome_iff_exists.mp (occursIn_iff.mpr hmem)
  have hfree : ¬piece marker <:+: front := fun hoccurs =>
    not_isInfix_unlines hmarker hbefore (hoccurs.trans hfront.isInfix)
  have halone : extract marker (String.ofList ([] ++ (line.toList ++ []))) =
      String.ofList (unwrap rest) :=
    extract_of_line (.inl rfl) (mt List.infix_nil.mp (piece_ne_nil _)) hline hafter (.inl rfl)
  rw [List.nil_append, List.append_nil, String.ofList_toList] at halone
  rw [halone, toList_unlines_cons]
  exact extract_of_line ((endsLine_unlines before).of_suffix hfront) hfree hline hafter
    (.inr ⟨_, rfl⟩)

/-- The lines near the end are kept. -/
theorem Keeps.exists_front {a b : String} {transcript : String} (h : Keeps (a ++ b) transcript)
    (hb : b.utf8ByteSize ≤ floor) :
    ∃ front, front <:+ a.toList ∧ transcript = String.ofList (front ++ b.toList) := by
  obtain ⟨⟨dropped, hdropped⟩, -, hkept⟩ := h
  rcases hkept with rfl | ⟨-, hfloor⟩
  · exact ⟨a.toList, List.suffix_rfl, by rw [← String.toList_append, String.ofList_toList]⟩
  · have hsplit : a.toList ++ b.toList = dropped.toList ++ transcript.toList := by
      rw [← String.toList_append, hdropped, String.toList_append]
    rcases List.append_eq_append_iff.mp hsplit with ⟨more, -, hb'⟩ | ⟨front, hfront, hrest⟩
    -- the transcript would lie inside of `b`, so it is `b`
    · have hsize := congrArg size hb'
      rw [size_append, size_toList, size_toList] at hsize
      obtain rfl : more = [] := eq_nil_of_size_eq_zero (by omega)
      rw [List.nil_append] at hb'
      exact ⟨[], List.nil_suffix, by rw [hb', List.nil_append, String.ofList_toList]⟩
    · exact ⟨front, ⟨dropped.toList, hfront.symm⟩, by rw [← hrest, String.ofList_toList]⟩

/-- A value printed near the end is extracted from the transcript. -/
theorem extract_ofLines (hmarker : '\n' ∉ marker.toList)
    (hbefore : ∀ earlier ∈ before, ¬piece marker <:+: earlier.toList)
    (hline : '\n' ∉ line.toList) (hmem : piece marker <:+: line.toList) {after : List String}
    (hnear : (unlines (line :: after)).utf8ByteSize ≤ floor) :
    extract marker (ofLines (before ++ line :: after)) = extract marker line := by
  have hkeeps := keeps_ofLines (before ++ line :: after)
  rw [unlines_append] at hkeeps
  obtain ⟨front, hfront, htranscript⟩ := hkeeps.exists_front hnear
  rw [htranscript, extract_of_suffix hmarker hbefore hline hmem after hfront]

theorem extract_ofLines_eq_empty {lines : List String} (hmarker : '\n' ∉ marker.toList)
    (h : ∀ line ∈ lines, ¬piece marker <:+: line.toList) :
    extract marker (ofLines lines) = "" := by
  obtain ⟨dropped, hdropped⟩ := (keeps_ofLines lines).suffix
  have hfree : ¬piece marker <:+: (ofLines lines).toList := by
    intro hoccurs
    refine not_isInfix_unlines hmarker h (hoccurs.trans ?_)
    rw [hdropped, String.toList_append]
    exact (List.suffix_append _ _).isInfix
  rw [extract_eq, findSome?_lines_eq_none fun line hmem hoccurs =>
    hfree (hoccurs.trans (of_mem_splitOn hmem).2)]
  rfl

end

theorem feed_not_mem_walletAddress : '\n' ∉ walletAddress.toList := by decide +kernel

/--
**Dropping old output does not lose the wallet's address.** If the first line with the marker is
among the last two mebibytes of the output, three bytes apart, the address is extracted from the
transcript as from the whole output and as from that line alone. Without such a line there is none.
-/
theorem wallet_kept :
    (∀ (before after : List String) (line : String),
      (∀ earlier ∈ before, ¬piece walletAddress <:+: earlier.toList) → '\n' ∉ line.toList →
      piece walletAddress <:+: line.toList → (unlines (line :: after)).utf8ByteSize ≤ 2097149 →
        extract walletAddress (ofLines (before ++ line :: after)) =
          extract walletAddress (unlines (before ++ line :: after)) ∧
        extract walletAddress (ofLines (before ++ line :: after)) = extract walletAddress line) ∧
    ∀ lines : List String, (∀ line ∈ lines, ¬piece walletAddress <:+: line.toList) →
      extract walletAddress (ofLines lines) = "" := by
  refine ⟨?_, fun lines => extract_ofLines_eq_empty feed_not_mem_walletAddress⟩
  intro before after line hbefore hline hmem hnear
  have hkept := extract_ofLines feed_not_mem_walletAddress hbefore hline hmem hnear
  have hwhole :=
    extract_of_suffix feed_not_mem_walletAddress hbefore hline hmem after List.suffix_rfl
  rw [← String.toList_append, String.ofList_toList, ← unlines_append] at hwhole
  exact ⟨hkept.trans hwhole.symm, hkept⟩

theorem not_isInfix_replicate {q : List Char} {c d : Char} (hmem : d ∈ q) (hne : d ≠ c)
    (n : Nat) : ¬q <:+: List.replicate n c := fun hoccurs =>
  hne (List.eq_of_mem_replicate (hoccurs.subset hmem))

/-- A long line without a marker, twice as many bytes as a transcript may have. -/
def longLine : String := String.ofList (List.replicate limit 'é')

theorem toList_longLine : longLine.toList = List.replicate limit 'é' := String.toList_ofList

theorem utf8ByteSize_longLine : longLine.utf8ByteSize = limit * 2 := size_replicate limit 'é'

/-- The transcript is cut inside of a line in front of the address. -/
theorem wallet_kept_longLine :
    (∀ earlier ∈ [longLine], ¬piece walletAddress <:+: earlier.toList) ∧
    '\n' ∉ "WALLET_ADDRESS=0xfeed".toList ∧
    piece walletAddress <:+: "WALLET_ADDRESS=0xfeed".toList ∧
    (unlines ["WALLET_ADDRESS=0xfeed", "PLAY RECAP"]).utf8ByteSize ≤ 2097149 ∧
    ofLines [longLine, "WALLET_ADDRESS=0xfeed", "PLAY RECAP"] ≠
      unlines [longLine, "WALLET_ADDRESS=0xfeed", "PLAY RECAP"] ∧
    extract walletAddress (ofLines [longLine, "WALLET_ADDRESS=0xfeed", "PLAY RECAP"]) = "0xfeed" ∧
    (∀ line ∈ [longLine], ¬piece walletAddress <:+: line.toList) ∧
    extract walletAddress (ofLines [longLine]) = "" := by
  have hfree : ∀ earlier ∈ [longLine], ¬piece walletAddress <:+: earlier.toList := by
    rw [List.forall_mem_singleton, toList_longLine]
    exact not_isInfix_replicate (d := 'W') (by decide +kernel) (by decide) limit
  have hline : '\n' ∉ "WALLET_ADDRESS=0xfeed".toList := by decide +kernel
  have hmem : piece walletAddress <:+: "WALLET_ADDRESS=0xfeed".toList := by decide +kernel
  have hnear : (unlines ["WALLET_ADDRESS=0xfeed", "PLAY RECAP"]).utf8ByteSize ≤ 2097149 := by
    decide +kernel
  have hcut : ofLines [longLine, "WALLET_ADDRESS=0xfeed", "PLAY RECAP"] ≠
      unlines [longLine, "WALLET_ADDRESS=0xfeed", "PLAY RECAP"] := by
    intro heq
    have hle := (keeps_ofLines [longLine, "WALLET_ADDRESS=0xfeed", "PLAY RECAP"]).le_limit
    rw [heq, unlines_cons, String.utf8ByteSize_append, String.utf8ByteSize_append,
      utf8ByteSize_longLine, limit_eq] at hle
    omega
  obtain ⟨hkept, hnone⟩ := wallet_kept
  obtain ⟨-, haddress⟩ := hkept [longLine] ["PLAY RECAP"] _ hfree hline hmem hnear
  refine ⟨hfree, hline, hmem, hnear, hcut, haddress.trans (by decide +kernel), hfree,
    hnone [longLine] hfree⟩

end Provisioner.Transcript
