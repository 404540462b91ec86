import StagedCopy.Copy.Failure

/-!
# Publishing a staged file

A staged file becomes the target by a rename, which no store does onto something that exists. So
an existing target is removed first, then the directory of the target is made when it is missing,
and the rename comes last. Between the removal and the rename the target is absent.
-/

namespace StagedCopy

/-- A program that ends with a value or with the cause of a failure. -/
abbrev Fallible (α : Type) : Type := ExceptT CopyFailure Program α

namespace Fallible

/-- A call whose failure ends the program with a cause made from the message. -/
def call (side : Side) (c : StorageCall) (failure : Bytes → CopyFailure) : Fallible c.Value :=
  ExceptT.mk do
    match ← Program.call side c with
    | .ok value => pure (.ok value)
    | .error message => pure (.error (failure message))

end Fallible

/-- The file at `temp` becomes the file at `target`. -/
def promote (temp target : Path) : Fallible Unit := do
  let failure (step : PromotionStep) (message : Bytes) : CopyFailure :=
    .promotion step temp target message
  let occupied : Bool ← Fallible.call .target (.pathExists target) (failure .deleteExisting)
  if occupied then
    Fallible.call .target (.remove target false) (failure .deleteExisting)
  let parent := target.parent
  unless parent.isEmpty do
    let housed : Bool ← Fallible.call .target (.pathExists parent) (failure .createParent)
    unless housed do
      Fallible.call .target (.makeDirs parent) (failure .createParent)
  Fallible.call .target (.rename temp target) (failure .rename)

end StagedCopy
