import Dagmar.CmlWeb
import Dagmar.Library.Interleaving

/-! Assertions consumed side by side. Each statement of `_identity` is a step of its
session. A transaction sees its own rows and what has been committed; it waits for the
rows another one deletes and for the key another one inserts. -/

namespace Dagmar.Cml
open Library

/-- The clock, the committed rows and the claims of the requests that were accepted, the latest first. -/
structure Gate where
  clock : Int
  nonces : Nonces
  accepted : List Json

def Gate.start (clock : Int) : Gate := ⟨clock, ∅, []⟩

/-- Where a request stands: since when its assertion is verified, and which rows it has deleted. -/
inductive Entrance where
  | idle
  | verified (claims : Json) (since : Int)
  | purged (claims : Json) (since : Int) (old : List Nonce)
  | inserted (claims : Json) (old : List Nonce)

def Deletes : Entrance → String → Prop
  | .purged _ _ old, key => ∃ row ∈ old, row.jti = key
  | .inserted _ old, key => ∃ row ∈ old, row.jti = key
  | _, _ => False

def Inserts : Entrance → String → Prop
  | .inserted claims _, key => jti claims = key
  | _, _ => False

/-- What a session may do next. `DELETE` takes old rows that are there when it comes to them,
which need not be all that are old by then; `INSERT` happens less than 20 seconds after the
assertion was verified. -/
inductive Enters (boundary : CmlWebBoundary) (verifier : WebVerifier) : Rule Gate Entrance
  | tick {world : World Gate Entrance} {who : Nat} (later : Int) (ordered : world.state.clock ≤ later) :
      Enters boundary verifier world who { world.state with clock := later } (world.sessions who)
  | verify {world : World Gate Entrance} {who : Nat} {scope : Scope} {claims : Json} {body : Bytes} {rawPath query : List Char}
      (idle : world.sessions who = .idle)
      (admitted : boundary.checkScope verifier world.state.clock scope = .ok (claims, body, rawPath, query)) :
      Enters boundary verifier world who world.state (.verified claims world.state.clock)
  | purge {world : World Gate Entrance} {who : Nat} {claims : Json} {since : Int} (old : List Nonce)
      (verified : world.sessions who = .verified claims since)
      (matching : ∀ row ∈ old, row ∈ world.state.nonces ∧ isOld claims row)
      (free : ∀ row ∈ old, Available Deletes world who row.jti) :
      Enters boundary verifier world who world.state (.purged claims since old)
  | insert {world : World Gate Entrance} {who : Nat} {claims : Json} {since : Int} {old : List Nonce}
      (purged : world.sessions who = .purged claims since old) (prompt : world.state.clock < since + 20)
      (absent : ∀ row ∈ world.state.nonces, row.jti = jti claims → row ∈ old)
      (undeleted : Available Deletes world who (jti claims)) (alone : Available Inserts world who (jti claims)) :
      Enters boundary verifier world who world.state (.inserted claims old)
  | commit {world : World Gate Entrance} {who : Nat} {claims : Json} {old : List Nonce} {nonces : Nonces}
      (inserted : world.sessions who = .inserted claims old)
      (stored : (world.state.nonces.deleteWhere (· ∈ old)).insertAll [nonceOf claims] = some nonces) :
      Enters boundary verifier world who { world.state with nonces := nonces, accepted := claims :: world.state.accepted } .idle
  | abandon {world : World Gate Entrance} {who : Nat} : Enters boundary verifier world who world.state .idle

end Dagmar.Cml
