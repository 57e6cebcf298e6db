import VhalCore.Models.Proto.Native.Converter

/-!
# Queries for supported values over the proxy

The client fills the pairs into a request, the server converts them back, asks the
hardware and converts its results, and the client converts the results of the reply. A
failed call gives one internal error for every pair. The two queries differ in the type
of their results only.
-/

namespace VhalCore.ProtoMsgConverter

variable {AidlResult ProtoResult : Type}

/-- Appends some pairs to a request. -/
def fillPropIdAreaIdsToProtoRequest (propIdAreaIds : List Aidl.PropIdAreaId)
    (protoRequest : List Proto.PropIdAreaId) : List Proto.PropIdAreaId :=
  addAll (fun propIdAreaId => propIdAreaId.aidlToProto {}) propIdAreaIds protoRequest

/-- The pairs of a request. -/
def getPropIdAreaIdsFromProtoRequest (request : List Proto.PropIdAreaId) :
    List Aidl.PropIdAreaId :=
  addAll (fun protoPropIdAreaId => protoPropIdAreaId.protoToAidl {}) request []

/-- The results of the hardware, converted and added to the reply. -/
def aidlResultsToProtoResults (aidlToProto : AidlResult → ProtoResult)
    (aidlResults : List AidlResult) (result : List ProtoResult) : List ProtoResult :=
  addAll aidlToProto aidlResults result

/-- Converts all results of a reply. -/
def convertSupportedValueProtoResultToAidlResults (protoToAidl : ProtoResult → AidlResult)
    (protoResult : List ProtoResult) : List AidlResult :=
  addAll protoToAidl protoResult []

/-- The handler of the server for a query. -/
def serveSupportedValues (aidlToProto : AidlResult → ProtoResult)
    (hardware : List Aidl.PropIdAreaId → List AidlResult) (request : List Proto.PropIdAreaId) :
    List ProtoResult :=
  aidlResultsToProtoResults aidlToProto (hardware (getPropIdAreaIdsFromProtoRequest request)) []

/-- The call of the client; `stub` is the remote call, which fails without a reply. -/
def querySupportedValues (protoToAidl : ProtoResult → AidlResult) (internalError : AidlResult)
    (stub : List Proto.PropIdAreaId → Option (List ProtoResult))
    (propIdAreaIds : List Aidl.PropIdAreaId) : List AidlResult :=
  match stub (fillPropIdAreaIdsToProtoRequest propIdAreaIds []) with
  | none => addAll (fun _ => internalError) propIdAreaIds []
  | some protoResult => convertSupportedValueProtoResultToAidlResults protoToAidl protoResult

/-- `GrpcVehicleProxyServer::GetMinMaxSupportedValues` -/
def serveMinMaxSupportedValues
    (hardware : List Aidl.PropIdAreaId → List Aidl.MinMaxSupportedValueResult) :
    List Proto.PropIdAreaId → List Proto.MinMaxSupportedValueResult :=
  serveSupportedValues (fun result => result.aidlToProto {}) hardware

/-- `GRPCVehicleHardware::getMinMaxSupportedValues` -/
def getMinMaxSupportedValues
    (stub : List Proto.PropIdAreaId → Option (List Proto.MinMaxSupportedValueResult)) :
    List Aidl.PropIdAreaId → List Aidl.MinMaxSupportedValueResult :=
  querySupportedValues (fun result => result.protoToAidl {}) { status := statusInternalError } stub

/-- `GrpcVehicleProxyServer::GetSupportedValuesLists` -/
def serveSupportedValuesLists
    (hardware : List Aidl.PropIdAreaId → List Aidl.SupportedValuesListResult) :
    List Proto.PropIdAreaId → List Proto.SupportedValuesListResult :=
  serveSupportedValues (fun result => result.aidlToProto {}) hardware

/-- `GRPCVehicleHardware::getSupportedValuesLists` -/
def getSupportedValuesLists
    (stub : List Proto.PropIdAreaId → Option (List Proto.SupportedValuesListResult)) :
    List Aidl.PropIdAreaId → List Aidl.SupportedValuesListResult :=
  querySupportedValues (fun result => result.protoToAidl {}) { status := statusInternalError } stub

end VhalCore.ProtoMsgConverter
