import RustyIce.Core.Types

/-
  The administrator's title of a mount: setting and clearing
  it.

  An answer is its status and its body, and what the handler
  stores in the title of the mount, if anything.

  Main declarations:
    * `setTitle`, `clearTitle`
    * `stored_of_setTitle`
-/

------------------------------------------------------------
-- Handlers
------------------------------------------------------------

namespace RustyIce

namespace Admin

def MAX_TITLE_LEN : Nat := 256

structure ActionResult where
  success : Bool
  message : String
deriving DecidableEq, Repr

structure TitleReply where
  status : Nat
  result : ActionResult
  stored : Option (Option String)
deriving DecidableEq, Repr

def mountNotFound : TitleReply where
  status := 404
  result := ⟨false, "mount not found"⟩
  stored := none

def titleCleared : TitleReply where
  status := 200
  result := ⟨true, "title cleared"⟩
  stored := some none

/- A request to set the title of a mount that is `known`. -/
def setTitle
    (known : Bool)
    (title : String) : TitleReply :=
  if ¬ known then
    mountNotFound
  else
    let trimmed := trimText title.toList
    if trimmed = [] then
      titleCleared
    else if
        '\'' ∈ trimmed ∨ '\r' ∈ trimmed ∨ '\n' ∈ trimmed
      then
      { status := 400
        result :=
          ⟨false, "title may not contain ' or newlines"⟩
        stored := none }
    else if MAX_TITLE_LEN < trimmed.length then
      { status := 400
        result :=
          ⟨false,
            "title too long (max " ++
              toString MAX_TITLE_LEN ++ " chars)"⟩
        stored := none }
    else
      { status := 200
        result := ⟨true, "title updated"⟩
        stored := some (some (String.ofList trimmed)) }

def clearTitle (known : Bool) : TitleReply :=
  if known then titleCleared else mountNotFound

end Admin

end RustyIce

------------------------------------------------------------
-- What Is Stored
------------------------------------------------------------

namespace RustyIce

namespace Admin

/- A title that gets stored is clean, and not too long. -/
structure CleanTitle (text : List Char) : Prop where
  some : text ≠ []
  quote : '\'' ∉ text
  newlines : '\r' ∉ text ∧ '\n' ∉ text
  short : text.length ≤ MAX_TITLE_LEN

theorem stored_of_setTitle
    {known : Bool}
    {title stored : String}
    (hStored :
      (setTitle known title).stored = some (some stored)) :
    stored.toList = trimText title.toList ∧
      CleanTitle stored.toList := by
  simp only [setTitle] at hStored
  split at hStored
  · cases hStored
  · split at hStored
    · cases hStored
    · rename_i hSome
      split at hStored
      · cases hStored
      · rename_i hClean
        split at hStored
        · cases hStored
        · rename_i hShort
          cases hStored
          rw [not_or, not_or] at hClean
          rw [String.toList_ofList]
          exact
            ⟨rfl,
              { some := hSome
                quote := hClean.1
                newlines := hClean.2
                short := Nat.le_of_not_lt hShort }⟩

end Admin

end RustyIce
