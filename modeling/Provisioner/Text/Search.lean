/-!
# Finding and replacing a piece of text

`after? piece text` is what follows the first occurrence of `piece`. `replaceAll` replaces the
occurrences from left to right, each search starting behind the occurrence before it, so
replaced places never overlap and a replacement is never searched again.
-/

namespace Provisioner.Text

/-- What follows `piece` in `text`, if `text` starts with it. -/
def afterStart? : List Char → List Char → Option (List Char)
  | [], text => some text
  | _ :: _, [] => none
  | p :: piece, c :: text => if p = c then afterStart? piece text else none

/-- What follows the first occurrence of `piece` in `text`, if there is one. -/
def after? (piece : List Char) : List Char → Option (List Char)
  | [] => afterStart? piece []
  | c :: text =>
    match afterStart? piece (c :: text) with
    | some rest => some rest
    | none => after? piece text

/-- Whether `piece` occurs in `text`. -/
def occursIn (piece text : List Char) : Bool := (after? piece text).isSome

theorem afterStart?_eq_some_iff {piece text rest : List Char} :
    afterStart? piece text = some rest ↔ text = piece ++ rest := by
  induction piece generalizing text with
  | nil => simp [afterStart?, eq_comm]
  | cons p piece ih =>
    cases text with
    | nil => simp [afterStart?]
    | cons c text =>
      by_cases h : p = c
      · subst h
        simp [afterStart?, ih]
      · simp [afterStart?, h, Ne.symm h]

/--
The work of `replaceAll` on the rest of a text: `skip` characters of it belong to an occurrence
already replaced, and `done` is the result so far, last character first.
-/
def replaceFrom (piece mask done : List Char) : Nat → List Char → List Char
  | _, [] => done.reverse
  | skip + 1, _ :: text => replaceFrom piece mask done skip text
  | 0, c :: text =>
    if piece.isPrefixOf (c :: text) then
      replaceFrom piece mask (mask.reverse ++ done) (piece.length - 1) text
    else replaceFrom piece mask (c :: done) 0 text

/-- `text` with `mask` in place of each occurrence of `piece`, which must not be empty. -/
def replaceAll (piece mask text : List Char) : List Char := replaceFrom piece mask [] 0 text

/-- What was done so far stands in front of the rest of the work. -/
theorem replaceFrom_eq_append (piece mask done text : List Char) (skip : Nat) :
    replaceFrom piece mask done skip text = done.reverse ++ replaceFrom piece mask [] skip text := by
  induction text generalizing done skip with
  | nil => cases skip <;> simp [replaceFrom]
  | cons c text ih =>
    cases skip with
    | succ skip => simpa [replaceFrom] using ih done skip
    | zero =>
      simp only [replaceFrom]
      split
      · rw [ih (mask.reverse ++ done), ih (mask.reverse ++ [])]
        simp
      · rw [ih (c :: done), ih [c]]
        simp

end Provisioner.Text
