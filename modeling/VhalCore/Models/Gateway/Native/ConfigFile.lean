import VhalCore.Core.Execution
import VhalCore.Core.Numerals
import VhalCore.Models.Gateway.Native.Gateway

/-!
# The config file of the gateway

`loadFromFile` reads the nodes of a JSON document and appends them to its output parameter one
by one. It returns at the first error, with the version and the nodes before the error in the
output already. The library that reads JSON throws where a member is asked of a value that
has none.
-/

namespace VhalCore.Gateway

/-- The values of the JSON library. -/
inductive JsonValue where
  | null
  | bool (value : Bool)
  | number (literal : List Char)
  | string (text : List Char)
  | array (elements : List JsonValue)
  | object (members : List (String × JsonValue))

/-- Why a load does not succeed. -/
inductive LoadError where
  /-- `Cannot open config file: {}` -/
  | cannotOpen
  /-- `JSON parse error in {}: {}` -/
  | parseError (errs : String)
  /-- `Missing or invalid 'version' field` -/
  | invalidVersion
  /-- `Missing or invalid 'gatewayNodes' array` -/
  | invalidGatewayNodes
  /-- `A gatewayNode is missing 'ipaddr'` -/
  | missingIpaddr
  /-- `A gatewayNode is missing 'messages'` -/
  | missingMessages
  /-- `A message entry is missing 'msgId'` -/
  | missingMsgId
  /-- `A message entry is missing 'properties'` -/
  | missingProperties
  /-- `A property entry in message '{}' is missing 'id'` -/
  | missingId (msgId : List Char)
  /-- `A property entry in message '{}' is missing 'desc'` -/
  | missingDesc (msgId : List Char)
  /-- `Invalid property id '{}' in message '{}'` -/
  | invalidId (idStr msgId : List Char)
  /-- The JSON library throws: the value is not an object. -/
  | notAnObject
  deriving DecidableEq

/-- What `loadFromFile` finds at its path. -/
inductive ConfigFile where
  | missing
  | malformed (errs : String)
  | parsed (root : JsonValue)

namespace JsonValue

/-- The member of an object; null has none. -/
def member (name : String) : JsonValue → Except LoadError (Option JsonValue)
  | null => .ok none
  | object members => .ok (members.lookup name)
  | _ => .error .notAnObject

/-- A member that has to be a string. -/
def stringMember (name : String) (missing : LoadError) (value : JsonValue) :
    Except LoadError (List Char) := do
  match ← value.member name with
  | some (.string text) => return text
  | _ => throw missing

/-- A member that has to be an array. -/
def arrayMember (name : String) (missing : LoadError) (value : JsonValue) :
    Except LoadError (List JsonValue) := do
  match ← value.member name with
  | some (.array elements) => return elements
  | _ => throw missing

end JsonValue

/-- `static_cast<int32_t>` of an unsigned number. -/
def toInt32 (n : Nat) : Int := Int.bmod n (2 ^ 32)

/-- Reads a property of a message. -/
def parseProperty (msgId : List Char) (propJson : JsonValue) :
    Except LoadError GatewayProperty := do
  let idStr ← propJson.stringMember "id" (.missingId msgId)
  let desc ← propJson.stringMember "desc" (.missingDesc msgId)
  match stoul idStr with
  | none => throw (.invalidId idStr msgId)
  | some id => return { id := toInt32 id, desc := String.ofList desc }

/-- Reads a message with its properties. -/
def parseMessage (msgJson : JsonValue) : Except LoadError GatewayMessage := do
  let msgId ← msgJson.stringMember "msgId" .missingMsgId
  let propertiesJson ← msgJson.arrayMember "properties" .missingProperties
  let properties ← propertiesJson.mapM (parseProperty msgId)
  return { msgId := String.ofList msgId, properties := properties }

/-- Reads a node with its messages. -/
def parseNode (nodeJson : JsonValue) : Except LoadError GatewayNodeConfig := do
  let ipaddr ← nodeJson.stringMember "ipaddr" .missingIpaddr
  let messagesJson ← nodeJson.arrayMember "messages" .missingMessages
  let messages ← messagesJson.mapM parseMessage
  return { ipaddr := String.ofList ipaddr, messages := messages }

/-- One turn of the loop over the nodes. -/
def loadNode (nodeJson : JsonValue) (out : GatewayConfig) :
    Except LoadError Unit × GatewayConfig :=
  match parseNode nodeJson with
  | .error e => (.error e, out)
  | .ok node => (.ok (), { out with nodes := out.nodes ++ [node] })

/-- The result of a load and the output parameter after it. -/
def loadFromFile (file : ConfigFile) (out : GatewayConfig) :
    Except LoadError Unit × GatewayConfig :=
  match file with
  | .missing => (.error .cannotOpen, out)
  | .malformed errs => (.error (.parseError errs), out)
  | .parsed root =>
      match root.stringMember "version" .invalidVersion with
      | .error e => (.error e, out)
      | .ok version =>
          let out := { out with version := String.ofList version }
          match root.arrayMember "gatewayNodes" .invalidGatewayNodes with
          | .error e => (.error e, out)
          | .ok nodes => forEach loadNode nodes out

end VhalCore.Gateway
