import Mathlib.Data.Int.Notation
import Tag2now.Caching.Misses

/-! # The active popups -/
namespace Tag2now.Popups
open CacheMisses

structure PopupContent where
  title : String
  body : String
  allowDismissForever : Bool
  allowDismissDay : Bool
  active : Bool
  deriving DecidableEq

structure Popup where
  id : ℕ
  content : PopupContent
  imageHash : Option String
  createdBy : String
  createdAt : ℤ
  updatedAt : ℤ
  deriving DecidableEq

structure PopupOut where
  id : ℕ
  title : String
  body : String
  /-- Relative to the API root. -/
  imagePath : Option String
  allowDismissForever : Bool
  allowDismissDay : Bool
  deriving DecidableEq

def imagePath (id : ℕ) (hash : String) : String := "popups/" ++ toString id ++ "/image?v=" ++ hash

def popupOut (popup : Popup) : PopupOut where
  id := popup.id
  title := popup.content.title
  body := popup.content.body
  imagePath := (popup.imageHash.filter (· ≠ "")).map (imagePath popup.id)
  allowDismissForever := popup.content.allowDismissForever
  allowDismissDay := popup.content.allowDismissDay

/-- The repository's list of popups, of all or of the active ones. -/
abbrev ListPopups (ε : Type) := (activeOnly : Bool) → Except ε (List Popup)

def activeKey : String := "popups:active"

def uncachedActive {ε : Type} (listPopups : ListPopups ε) : Except ε (List PopupOut) :=
  (listPopups true).map fun popups => popups.map popupOut

def listActive {ε : Type} (listPopups : ListPopups ε) : Call (fun _ : String => List PopupOut) ε (List PopupOut) :=
  readThrough activeKey (fun _ => true) (uncachedActive listPopups)

end Tag2now.Popups
