import VhalCore.Models.Gateway.Native.Gateway
import VhalCore.Models.PropertyStore.Interpretation.Validity

/-!
# The local VHAL

The polls of the gateway are answered by the local VHAL. It reads a value from its property
store, except for some properties that have a getter of their own. The client gives the value
that it receives a local timestamp.
-/

namespace VhalCore.Gateway

open Grpc (GetValueRequest GetValueResult)
open PropertyStore (StoreError VehiclePropertyStore Reachable)

/-- The code of a store error on the wire. -/
def storeErrorCode (e : StoreError) : Int :=
  match e.code with
  | .notAvailable => 3
  | _ => 2

/-- The store of the local VHAL, and the results of the getters. A property with a token
function has a getter, and a getter answers for the property that it is asked for. -/
structure LocalVhal where
  mServerSidePropStore : VehiclePropertyStore
  maybeGetSpecialValue : VehiclePropValue → Option (Except Int VehiclePropValue)
  reachable : Reachable mServerSidePropStore
  special_prop : ∀ value result, maybeGetSpecialValue value = some (.ok result) →
    result.prop = value.prop
  special_of_token : ∀ value record,
    mServerSidePropStore.getRecordLocked value.prop = some record →
    record.tokenFunction ≠ none → maybeGetSpecialValue value ≠ none

namespace LocalVhal

/-- Reads a value: a special one, or the one in the store. -/
def getValue (vhal : LocalVhal) (value : VehiclePropValue) : Except Int VehiclePropValue :=
  match vhal.maybeGetSpecialValue value with
  | some result => result
  | none => (vhal.mServerSidePropStore.readValue value).mapError storeErrorCode

/-- The result of a request, with the timestamp that the client gives to the value. -/
def handleGetValueRequest (vhal : LocalVhal) (stamp : VehiclePropValue → Int)
    (request : GetValueRequest) : GetValueResult :=
  match vhal.getValue request.prop with
  | .ok value => ⟨request.requestId, statusOk, some { value with timestamp := stamp value }⟩
  | .error code => ⟨request.requestId, code, none⟩

/-- The results of a poll, in any order. -/
def Answers (vhal : LocalVhal) (stamp : VehiclePropValue → Int) (g : VhalGateway)
    (results : List GetValueResult) : Prop :=
  results.Perm (g.mGetRequests.map (vhal.handleGetValueRequest stamp))

end LocalVhal

end VhalCore.Gateway
