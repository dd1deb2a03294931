import Dagmar.Base64
import Dagmar.CmlAssertion
import Dagmar.IntegrationLists
import Dagmar.JsonValues

/-! The texts of the cursors of the integration lists. A text is completed with padding
and read leniently, its bytes are UTF-8 and its characters JSON. -/

namespace Dagmar.Integration
open Library Library.Outcome

section Texts

/-- `json.loads`, which also reads what no JSON value here stands for, and may run out of its stack. -/
structure Loader where
  loads : String → Except Cml.LoadError Json
  agrees : ∀ text value found, JsonText.loads text = some value → loads text = .ok found → found = value

/-- The bytes of a cursor; `none` is a `ValueError`. -/
def cursorBytes (text : String) : Option (List UInt8) :=
  Base64.urlsafeB64decode (text.toList ++ List.replicate ((4 - text.length % 4) % 4) '=')

def readCursor (loader : Loader) (text : Option String) : Option Cursor :=
  (text.filter (· ≠ "")).map fun text =>
    match (cursorBytes text).bind fun bytes => String.fromUTF8? ⟨bytes.toArray⟩ with
    | none => .malformed
    | some json =>
      match loader.loads json with
      | .ok value => .json value
      | .error .value => .malformed
      | .error .recursion => .nested

/-- `encode_cursor`; a float is written by a function of its own. -/
def encodeCursorText (float : ℚ → List Char) (payload : Json) : String :=
  String.ofList (Base64.b64url (String.ofList (JsonText.dumps float payload)).toUTF8.data.toList)

/-- The text of a cursor that a list issues. -/
def Cursor.text? (float : ℚ → List Char) : Cursor → Option String
  | .json payload => some (encodeCursorText float payload)
  | _ => none

/-- A request for a page, with the cursor as it is sent. -/
def Listing.request (loader : Loader) (zone : Zone) (view : View) (client : IntegrationClient) (limit : Nat)
    (cursor : Option String) (listing : Listing) : Api ListResponse :=
  listing.answer zone view client limit (readCursor loader cursor)

end Texts

end Dagmar.Integration
