import VhalCore.Core.Outcomes
import VhalCore.Models.Gateway.Native.ConfigFile

/-!
# The property ids of a loaded config

An id string is meant to be a numeral of a 32-bit value from its first character to its last.
The load takes whatever `stoul` can begin to read, and it fills its output while it reads. A
load keeps to what is meant exactly if it stops before the output is touched, or if it succeeds
on a document whose id strings are all such numerals.
-/

namespace VhalCore.Gateway

namespace JsonValue

/-- The text of a string member. -/
def textAt (name : String) : JsonValue → Option (List Char)
  | object members =>
      match members.lookup name with
      | some (.string text) => some text
      | _ => none
  | _ => none

/-- The elements of an array member. -/
def arrayAt (name : String) : JsonValue → Option (List JsonValue)
  | object members =>
      match members.lookup name with
      | some (.array elements) => some elements
      | _ => none
  | _ => none

/-- A text is loaded exactly where the object has it. -/
theorem stringMember_eq_ok_iff {name : String} {missing : LoadError} {value : JsonValue}
    {text : List Char} :
    value.stringMember name missing = .ok text ↔ value.textAt name = some text := by
  rw [stringMember, bind_eq_ok_iff]
  cases value with
  | object members =>
      simp only [member, textAt, Except.ok.injEq, exists_eq_left']
      rcases members.lookup name with _ | ⟨_ | _ | _ | text' | _ | _⟩ <;>
        simp [pure, Except.pure, throw, throwThe, MonadExceptOf.throw]
  | null => simp [member, textAt, throw, throwThe, MonadExceptOf.throw]
  | bool _ => simp [member, textAt]
  | number _ => simp [member, textAt]
  | string _ => simp [member, textAt]
  | array _ => simp [member, textAt]

/-- An array is loaded exactly where the object has it. -/
theorem arrayMember_eq_ok_iff {name : String} {missing : LoadError} {value : JsonValue}
    {elements : List JsonValue} :
    value.arrayMember name missing = .ok elements ↔ value.arrayAt name = some elements := by
  rw [arrayMember, bind_eq_ok_iff]
  cases value with
  | object members =>
      simp only [member, arrayAt, Except.ok.injEq, exists_eq_left']
      rcases members.lookup name with _ | ⟨_ | _ | _ | _ | elements' | _⟩ <;>
        simp [pure, Except.pure, throw, throwThe, MonadExceptOf.throw]
  | null => simp [member, arrayAt, throw, throwThe, MonadExceptOf.throw]
  | bool _ => simp [member, arrayAt]
  | number _ => simp [member, arrayAt]
  | string _ => simp [member, arrayAt]
  | array _ => simp [member, arrayAt]

/-- An object without the text fails. -/
theorem exists_stringMember_error {name : String} {value : JsonValue} (missing : LoadError)
    (h : value.textAt name = none) : ∃ e, value.stringMember name missing = .error e := by
  rcases hmember : value.stringMember name missing with e | text
  · exact ⟨e, rfl⟩
  · rw [stringMember_eq_ok_iff.mp hmember] at h
    cases h

/-- An object without the array fails. -/
theorem exists_arrayMember_error {name : String} {value : JsonValue} (missing : LoadError)
    (h : value.arrayAt name = none) : ∃ e, value.arrayMember name missing = .error e := by
  rcases hmember : value.arrayMember name missing with e | elements
  · exact ⟨e, rfl⟩
  · rw [arrayMember_eq_ok_iff.mp hmember] at h
    cases h

end JsonValue

section Documents

/-- The id strings of a message entry. -/
def messageIds (msgJson : JsonValue) : List (List Char) :=
  ((msgJson.arrayAt "properties").getD []).filterMap (JsonValue.textAt "id")

/-- The texts of all property identities of a node. -/
def nodeIds (nodeJson : JsonValue) : List (List Char) :=
  ((nodeJson.arrayAt "messages").getD []).flatMap messageIds

/-- The id strings of a document, in document order. -/
def documentIds (root : JsonValue) : List (List Char) :=
  ((root.arrayAt "gatewayNodes").getD []).flatMap nodeIds

/-- The ids of a loaded config, in the same order. -/
def configIds (nodes : List GatewayNodeConfig) : List Int :=
  nodes.flatMap fun node => node.messages.flatMap fun msg => msg.properties.map GatewayProperty.id

/-- The text is in its entirety a numeral of a 32-bit value. -/
def IsExactId (text : List Char) : Prop := ∃ value, Numeral text value ∧ value < 2 ^ 32

/-- And the id is that value as an `int32_t`. -/
def StoresExactly (text : List Char) (id : Int) : Prop :=
  ∃ value, Numeral text value ∧ value < 2 ^ 32 ∧ id = toInt32 value

/-- What is meant of one load. -/
structure LoadsExactly (file : ConfigFile) (out : GatewayConfig) : Prop where
  exact : (loadFromFile file out).1 = .ok () → ∀ root, file = .parsed root →
    ∃ nodes, (loadFromFile file out).2.nodes = out.nodes ++ nodes ∧
      List.Forall₂ StoresExactly (documentIds root) (configIds nodes)
  rejects : ∀ root, file = .parsed root → ∀ text ∈ documentIds root, ¬ IsExactId text →
    (loadFromFile file out).1 ≠ .ok ()
  unchanged : (loadFromFile file out).1 ≠ .ok () → (loadFromFile file out).2 = out

end Documents

section Entries

/-- A property entry with its fields and an id string that begins with a number. -/
def IsPropertyEntry (propJson : JsonValue) : Prop :=
  ∃ id desc, propJson.textAt "id" = some id ∧ propJson.textAt "desc" = some desc ∧
    (stoul id).isSome

/-- A message of the document with its identity and its properties. -/
def IsMessageEntry (msgJson : JsonValue) : Prop :=
  (msgJson.textAt "msgId").isSome ∧
    ∃ properties, msgJson.arrayAt "properties" = some properties ∧
      ∀ propJson ∈ properties, IsPropertyEntry propJson

/-- A node of the document with its address and its messages. -/
def IsNodeEntry (nodeJson : JsonValue) : Prop :=
  (nodeJson.textAt "ipaddr").isSome ∧
    ∃ messages, nodeJson.arrayAt "messages" = some messages ∧
      ∀ msgJson ∈ messages, IsMessageEntry msgJson

/-- The id that the load stores for an id string. -/
def storedId (text : List Char) : Int := toInt32 ((stoul text).getD 0)

/-- A property is loaded exactly where both texts are there and the first denotes a number. -/
theorem parseProperty_eq_ok_iff {msgId : List Char} {propJson : JsonValue}
    {property : GatewayProperty} :
    parseProperty msgId propJson = .ok property ↔
      ∃ id desc value, propJson.textAt "id" = some id ∧ propJson.textAt "desc" = some desc ∧
        stoul id = some value ∧
        (⟨toInt32 value, String.ofList desc⟩ : GatewayProperty) = property := by
  simp only [parseProperty, bind_eq_ok_iff, JsonValue.stringMember_eq_ok_iff]
  constructor
  · rintro ⟨id, hid, desc, hdesc, h⟩
    rcases hvalue : stoul id with _ | value
    · rw [hvalue] at h
      cases h
    · rw [hvalue] at h
      exact ⟨id, desc, value, hid, hdesc, hvalue, Except.ok.inj h⟩
  · rintro ⟨id, desc, value, hid, hdesc, hvalue, rfl⟩
    refine ⟨id, hid, desc, hdesc, ?_⟩
    rw [hvalue]
    rfl

/-- A property is loaded exactly if it is an entry of one. -/
theorem exists_parseProperty_iff (msgId : List Char) {propJson : JsonValue} :
    (∃ property, parseProperty msgId propJson = .ok property) ↔ IsPropertyEntry propJson := by
  simp only [parseProperty_eq_ok_iff]
  constructor
  · rintro ⟨_, id, desc, value, hid, hdesc, hvalue, rfl⟩
    exact ⟨id, desc, hid, hdesc, by rw [hvalue]; rfl⟩
  · rintro ⟨id, desc, hid, hdesc, hvalue⟩
    obtain ⟨value, hvalue⟩ := Option.isSome_iff_exists.mp hvalue
    exact ⟨_, id, desc, value, hid, hdesc, hvalue, rfl⟩

/-- A message is loaded exactly where its members are there and its properties are loaded. -/
theorem parseMessage_eq_ok_iff {msgJson : JsonValue} {msg : GatewayMessage} :
    parseMessage msgJson = .ok msg ↔
      ∃ msgId propertiesJson properties, msgJson.textAt "msgId" = some msgId ∧
        msgJson.arrayAt "properties" = some propertiesJson ∧
        propertiesJson.mapM (parseProperty msgId) = .ok properties ∧
        (⟨String.ofList msgId, properties⟩ : GatewayMessage) = msg := by
  simp only [parseMessage, bind_eq_ok_iff, JsonValue.stringMember_eq_ok_iff,
    JsonValue.arrayMember_eq_ok_iff, pure, Except.pure, Except.ok.injEq]
  constructor
  · rintro ⟨msgId, hid, propertiesJson, harray, properties, hmap, h⟩
    exact ⟨msgId, propertiesJson, properties, hid, harray, hmap, h⟩
  · rintro ⟨msgId, propertiesJson, properties, hid, harray, hmap, h⟩
    exact ⟨msgId, hid, propertiesJson, harray, properties, hmap, h⟩

/-- A message is loaded exactly if it is an entry of one. -/
theorem exists_parseMessage_iff {msgJson : JsonValue} :
    (∃ msg, parseMessage msgJson = .ok msg) ↔ IsMessageEntry msgJson := by
  simp only [parseMessage_eq_ok_iff]
  constructor
  · rintro ⟨_, msgId, propertiesJson, properties, hid, harray, hmap, rfl⟩
    refine ⟨by rw [hid]; rfl, propertiesJson, harray, fun propJson hp => ?_⟩
    exact (exists_parseProperty_iff msgId).mp
      (exists_mapM_eq_ok_iff.mp ⟨properties, hmap⟩ propJson hp)
  · rintro ⟨hid, propertiesJson, harray, hall⟩
    obtain ⟨msgId, hid⟩ := Option.isSome_iff_exists.mp hid
    obtain ⟨properties, hmap⟩ := exists_mapM_eq_ok_iff.mpr fun propJson hp =>
      (exists_parseProperty_iff msgId).mpr (hall propJson hp)
    exact ⟨_, msgId, propertiesJson, properties, hid, harray, hmap, rfl⟩

/-- A node is loaded exactly where its members are there and its messages are loaded. -/
theorem parseNode_eq_ok_iff {nodeJson : JsonValue} {node : GatewayNodeConfig} :
    parseNode nodeJson = .ok node ↔
      ∃ ipaddr messagesJson messages, nodeJson.textAt "ipaddr" = some ipaddr ∧
        nodeJson.arrayAt "messages" = some messagesJson ∧
        messagesJson.mapM parseMessage = .ok messages ∧
        (⟨String.ofList ipaddr, messages⟩ : GatewayNodeConfig) = node := by
  simp only [parseNode, bind_eq_ok_iff, JsonValue.stringMember_eq_ok_iff,
    JsonValue.arrayMember_eq_ok_iff, pure, Except.pure, Except.ok.injEq]
  constructor
  · rintro ⟨ipaddr, hip, messagesJson, harray, messages, hmap, h⟩
    exact ⟨ipaddr, messagesJson, messages, hip, harray, hmap, h⟩
  · rintro ⟨ipaddr, messagesJson, messages, hip, harray, hmap, h⟩
    exact ⟨ipaddr, hip, messagesJson, harray, messages, hmap, h⟩

/-- A node is loaded exactly if it is an entry of one. -/
theorem exists_parseNode_iff {nodeJson : JsonValue} :
    (∃ node, parseNode nodeJson = .ok node) ↔ IsNodeEntry nodeJson := by
  simp only [parseNode_eq_ok_iff]
  constructor
  · rintro ⟨_, ipaddr, messagesJson, messages, hip, harray, hmap, rfl⟩
    refine ⟨by rw [hip]; rfl, messagesJson, harray, fun msgJson hm => ?_⟩
    exact exists_parseMessage_iff.mp (exists_mapM_eq_ok_iff.mp ⟨messages, hmap⟩ msgJson hm)
  · rintro ⟨hip, messagesJson, harray, hall⟩
    obtain ⟨ipaddr, hip⟩ := Option.isSome_iff_exists.mp hip
    obtain ⟨messages, hmap⟩ := exists_mapM_eq_ok_iff.mpr fun msgJson hm =>
      exists_parseMessage_iff.mpr (hall msgJson hm)
    exact ⟨_, ipaddr, messagesJson, messages, hip, harray, hmap, rfl⟩

end Entries

section StoredIds

/-- The identities of loaded properties are those of the document. -/
theorem ids_of_properties {msgId : List Char} {propertiesJson : List JsonValue}
    {properties : List GatewayProperty}
    (h : List.Forall₂ (fun p property => parseProperty msgId p = .ok property) propertiesJson
      properties) :
    properties.map GatewayProperty.id =
      (propertiesJson.filterMap (JsonValue.textAt "id")).map storedId := by
  induction h with
  | nil => rfl
  | cons hp _ ih =>
      obtain ⟨id, desc, value, hid, -, hvalue, rfl⟩ := parseProperty_eq_ok_iff.mp hp
      simp only [List.filterMap_cons, hid, List.map_cons, ih, storedId, hvalue, Option.getD_some]

/-- The identities of a loaded message are those of the document. -/
theorem ids_of_message {msgJson : JsonValue} {msg : GatewayMessage}
    (h : parseMessage msgJson = .ok msg) :
    msg.properties.map GatewayProperty.id = (messageIds msgJson).map storedId := by
  obtain ⟨msgId, propertiesJson, properties, -, harray, hmap, rfl⟩ := parseMessage_eq_ok_iff.mp h
  rw [messageIds, harray]
  exact ids_of_properties (mapM_eq_ok_iff.mp hmap)

/-- The identities of a loaded node are those of the document. -/
theorem ids_of_node {nodeJson : JsonValue} {node : GatewayNodeConfig}
    (h : parseNode nodeJson = .ok node) :
    configIds [node] = (nodeIds nodeJson).map storedId := by
  obtain ⟨ipaddr, messagesJson, messages, -, harray, hmap, rfl⟩ := parseNode_eq_ok_iff.mp h
  rw [configIds, List.flatMap_singleton, nodeIds, harray, Option.getD_some]
  have hall := mapM_eq_ok_iff.mp hmap
  clear h hmap harray
  induction hall with
  | nil => rfl
  | cons hm _ ih =>
      rw [List.flatMap_cons, List.flatMap_cons, List.map_append, ids_of_message hm]
      exact congrArg _ ih

/-- The identities of loaded nodes are those of the document. -/
theorem ids_of_nodes {nodesJson : List JsonValue} {nodes : List GatewayNodeConfig}
    (h : List.Forall₂ (fun n node => parseNode n = .ok node) nodesJson nodes) :
    configIds nodes = (nodesJson.flatMap nodeIds).map storedId := by
  induction h with
  | nil => rfl
  | cons hn _ ih =>
      have hnode := ids_of_node hn
      rw [configIds, List.flatMap_singleton] at hnode
      rw [configIds, List.flatMap_cons, List.flatMap_cons, List.map_append, hnode]
      exact congrArg _ ih

/-- The stored ids are exact if and only if the texts are. -/
theorem forall₂_storesExactly_iff {texts : List (List Char)} :
    List.Forall₂ StoresExactly texts (texts.map storedId) ↔ ∀ text ∈ texts, IsExactId text := by
  rw [List.forall₂_map_right_iff, List.forall₂_same]
  refine forall₂_congr fun text _ => ⟨?_, ?_⟩
  · rintro ⟨value, hn, hlt, -⟩
    exact ⟨value, hn, hlt⟩
  · rintro ⟨value, hn, hlt⟩
    refine ⟨value, hn, hlt, ?_⟩
    rw [storedId, hn.stoul_eq (by omega), Option.getD_some]

end StoredIds

section Loop

/-- Nodes that are all read are appended. -/
theorem forEach_loadNode_ok {nodesJson : List JsonValue} {nodes : List GatewayNodeConfig}
    (h : List.Forall₂ (fun n node => parseNode n = .ok node) nodesJson nodes)
    (out : GatewayConfig) :
    forEach loadNode nodesJson out = (.ok (), { out with nodes := out.nodes ++ nodes }) := by
  induction h generalizing out with
  | nil => rw [forEach_nil, List.append_nil]
  | cons hn _ ih =>
      rw [forEach_cons_ok (by rw [loadNode, hn]), ih]
      simp only [List.append_assoc, List.singleton_append]

/-- The loop ends at the first node that is not read, with the nodes before it appended. -/
theorem forEach_loadNode_error {nodesJson : List JsonValue}
    (h : ∃ nodeJson ∈ nodesJson, ¬ IsNodeEntry nodeJson) (out : GatewayConfig) :
    ∃ e nodes,
      forEach loadNode nodesJson out = (.error e, { out with nodes := out.nodes ++ nodes }) ∧
      (nodes = [] ↔ ∃ nodeJson ∈ nodesJson.head?, ¬ IsNodeEntry nodeJson) := by
  induction nodesJson generalizing out with
  | nil => simp at h
  | cons nodeJson rest ih =>
      simp only [List.head?_cons, Option.mem_some_iff, exists_eq_left']
      rcases hn : parseNode nodeJson with e | node
      · have hnot : ¬ IsNodeEntry nodeJson := by
          rw [← exists_parseNode_iff, hn]
          rintro ⟨_, h⟩
          cases h
        refine ⟨e, [], ?_, iff_of_true rfl hnot⟩
        rw [forEach_cons_error (by rw [loadNode, hn]), List.append_nil]
      · have hentry : IsNodeEntry nodeJson := exists_parseNode_iff.mp ⟨node, hn⟩
        have hrest : ∃ nodeJson ∈ rest, ¬ IsNodeEntry nodeJson := by
          obtain ⟨x, hx, hbad⟩ := h
          rcases List.mem_cons.mp hx with rfl | hx
          · exact absurd hentry hbad
          · exact ⟨x, hx, hbad⟩
        obtain ⟨e, nodes, heq, -⟩ := ih hrest { out with nodes := out.nodes ++ [node] }
        refine ⟨e, node :: nodes, ?_, iff_of_false (List.cons_ne_nil _ _) (not_not.mpr hentry)⟩
        rw [forEach_cons_ok (by rw [loadNode, hn]), heq]
        simp only [List.append_assoc, List.singleton_append]

end Loop

/-- The output is not touched before an error: the file is not read, the version is missing, or
the error is found before the first node is appended and the version is the one that the output
has already. Or there is no error and the id strings are numerals of 32-bit values. -/
def StopsEarlyOrIsExact (file : ConfigFile) (out : GatewayConfig) : Prop :=
  ∀ root version, file = .parsed root → root.textAt "version" = some version →
    match root.arrayAt "gatewayNodes" with
    | none => out.version = String.ofList version
    | some nodes =>
        (∀ nodeJson ∈ nodes, IsNodeEntry nodeJson) ∧ (∀ text ∈ documentIds root, IsExactId text) ∨
          out.version = String.ofList version ∧ ∃ nodeJson ∈ nodes.head?, ¬ IsNodeEntry nodeJson

/-- A load without a success leaves the output as it was if and only if it changes nothing. -/
theorem loadsExactly_of_error {file : ConfigFile} {out : GatewayConfig} {e : LoadError}
    (after : GatewayConfig) (h : loadFromFile file out = (.error e, after)) :
    LoadsExactly file out ↔ after = out := by
  have hne : (loadFromFile file out).1 ≠ .ok () := by
    rw [h]
    exact fun h => by cases h
  constructor
  · intro hl
    have := hl.unchanged hne
    rwa [h] at this
  · rintro rfl
    exact ⟨fun hok => absurd hok hne, fun _ _ _ _ _ => hne, fun _ => by rw [h]⟩

/-- A document that loads does so exactly if all of its identities are exact. -/
theorem loadsExactly_of_ok {root : JsonValue} {out : GatewayConfig} {version : String}
    {nodes : List GatewayNodeConfig}
    (h : loadFromFile (.parsed root) out = (.ok (), ⟨version, out.nodes ++ nodes⟩))
    (hids : configIds nodes = (documentIds root).map storedId) :
    LoadsExactly (.parsed root) out ↔ ∀ text ∈ documentIds root, IsExactId text := by
  constructor
  · intro hl text htext
    by_contra hnot
    exact hl.rejects root rfl text htext hnot (by rw [h])
  · intro hall
    refine ⟨fun _ root' hroot => ⟨nodes, by rw [h], ?_⟩, ?_, fun hne => absurd (by rw [h]) hne⟩
    · cases hroot
      rw [hids]
      exact forall₂_storesExactly_iff.mpr hall
    · intro root' hroot text htext hnot
      cases hroot
      exact absurd (hall text htext) hnot

/-- Appending nodes leaves the configuration exactly if there are none and the version is the
same. -/
theorem config_append_eq_iff {out : GatewayConfig} {version : String}
    {nodes : List GatewayNodeConfig} :
    (⟨version, out.nodes ++ nodes⟩ : GatewayConfig) = out ↔ out.version = version ∧ nodes = [] := by
  rcases out with ⟨version', nodes'⟩
  rw [GatewayConfig.mk.injEq, List.append_right_eq_self]
  exact and_congr_left fun _ => eq_comm

theorem config_eq_iff {out : GatewayConfig} {version : String} :
    ({ out with version := version } : GatewayConfig) = out ↔ out.version = version := by
  rcases out with ⟨version', nodes'⟩
  simp only [GatewayConfig.mk.injEq, and_true, eq_comm]

/-- A document without a version is rejected before the output is touched. -/
theorem loadFromFile_of_no_version {root : JsonValue} (h : root.textAt "version" = none)
    (out : GatewayConfig) : ∃ e, loadFromFile (.parsed root) out = (.error e, out) := by
  obtain ⟨e, he⟩ := JsonValue.exists_stringMember_error .invalidVersion h
  exact ⟨e, by simp only [loadFromFile, he]⟩

section Parsed

variable {root : JsonValue} {version : List Char} (out : GatewayConfig)

/-- Without an array of nodes the version is stored before the document is rejected. -/
theorem loadsExactly_of_no_nodes (hversion : root.textAt "version" = some version)
    (hnodes : root.arrayAt "gatewayNodes" = none) :
    LoadsExactly (.parsed root) out ↔ out.version = String.ofList version := by
  have hstring : root.stringMember "version" .invalidVersion = .ok version :=
    JsonValue.stringMember_eq_ok_iff.mpr hversion
  obtain ⟨e, he⟩ := JsonValue.exists_arrayMember_error .invalidGatewayNodes hnodes
  have hload : loadFromFile (.parsed root) out =
      (.error e, { out with version := String.ofList version }) := by
    simp only [loadFromFile, hstring, he]
  rw [loadsExactly_of_error _ hload]
  exact config_eq_iff

/-- The version and the nodes before the first one that is not read are stored. -/
theorem loadsExactly_of_nodes {nodesJson : List JsonValue}
    (hversion : root.textAt "version" = some version)
    (hnodes : root.arrayAt "gatewayNodes" = some nodesJson) :
    LoadsExactly (.parsed root) out ↔
      (∀ nodeJson ∈ nodesJson, IsNodeEntry nodeJson) ∧
          (∀ text ∈ documentIds root, IsExactId text) ∨
        out.version = String.ofList version ∧
          ∃ nodeJson ∈ nodesJson.head?, ¬ IsNodeEntry nodeJson := by
  have hstring : root.stringMember "version" .invalidVersion = .ok version :=
    JsonValue.stringMember_eq_ok_iff.mpr hversion
  have harray : root.arrayMember "gatewayNodes" .invalidGatewayNodes = .ok nodesJson :=
    JsonValue.arrayMember_eq_ok_iff.mpr hnodes
  have hload : loadFromFile (.parsed root) out =
      forEach loadNode nodesJson { out with version := String.ofList version } := by
    simp only [loadFromFile, hstring, harray]
  have hids : documentIds root = nodesJson.flatMap nodeIds := by
    rw [documentIds, hnodes, Option.getD_some]
  by_cases hall : ∀ nodeJson ∈ nodesJson, IsNodeEntry nodeJson
  · obtain ⟨nodes, hmap⟩ := exists_mapM_eq_ok_iff.mpr fun n hn =>
      exists_parseNode_iff.mpr (hall n hn)
    have hparsed := mapM_eq_ok_iff.mp hmap
    rw [forEach_loadNode_ok hparsed] at hload
    rw [loadsExactly_of_ok hload (by rw [hids]; exact ids_of_nodes hparsed)]
    refine ⟨fun h => Or.inl ⟨hall, h⟩, ?_⟩
    rintro (⟨-, h⟩ | ⟨-, n, hn, hbad⟩)
    · exact h
    · exact absurd (hall n (List.mem_of_mem_head? hn)) hbad
  · have hbad : ∃ nodeJson ∈ nodesJson, ¬ IsNodeEntry nodeJson := by
      by_contra h
      exact hall fun n hn => by_contra fun hnot => h ⟨n, hn, hnot⟩
    obtain ⟨e, nodes, heq, hnil⟩ :=
      forEach_loadNode_error hbad { out with version := String.ofList version }
    rw [heq] at hload
    rw [loadsExactly_of_error _ hload]
    simp only [hall, false_and, false_or]
    rw [← hnil]
    exact config_append_eq_iff

end Parsed

/-- A load is exact if and only if it stops before the output is touched, or succeeds on a
document of exact id strings. -/
theorem loadsExactly_iff (file : ConfigFile) (out : GatewayConfig) :
    LoadsExactly file out ↔ StopsEarlyOrIsExact file out := by
  rcases file with _ | errs | root
  · rw [loadsExactly_of_error out rfl]
    exact iff_of_true rfl fun _ _ h => by cases h
  · rw [loadsExactly_of_error out rfl]
    exact iff_of_true rfl fun _ _ h => by cases h
  rcases hversion : root.textAt "version" with _ | version
  · obtain ⟨e, hload⟩ := loadFromFile_of_no_version hversion out
    rw [loadsExactly_of_error _ hload]
    refine iff_of_true rfl fun root' v hroot hv => ?_
    cases hroot
    rw [hversion] at hv
    cases hv
  have hcondition : StopsEarlyOrIsExact (.parsed root) out ↔
      match root.arrayAt "gatewayNodes" with
      | none => out.version = String.ofList version
      | some nodes =>
          (∀ nodeJson ∈ nodes, IsNodeEntry nodeJson) ∧
              (∀ text ∈ documentIds root, IsExactId text) ∨
            out.version = String.ofList version ∧
              ∃ nodeJson ∈ nodes.head?, ¬ IsNodeEntry nodeJson := by
    refine ⟨fun h => h root version rfl hversion, fun h root' v hroot hv => ?_⟩
    cases hroot
    rw [hversion] at hv
    cases hv
    exact h
  rw [hcondition]
  rcases hnodes : root.arrayAt "gatewayNodes" with _ | nodesJson
  · exact loadsExactly_of_no_nodes out hversion hnodes
  · exact loadsExactly_of_nodes out hversion hnodes

section Example

/-- A document with one node and one message, of a property for each id string. -/
def idDocument (ids : List (List Char)) : JsonValue :=
  .object [
    ("version", .string ['1']),
    ("gatewayNodes", .array [
      .object [
        ("ipaddr", .string ['a']),
        ("messages", .array [
          .object [
            ("msgId", .string ['m']),
            ("properties", .array (ids.map fun id =>
              .object [("id", .string id), ("desc", .string [])]))]])]])]

/-- Trailing characters, a sign and a number of 33 bits are taken. -/
theorem loads_inexact_ids :
    (loadFromFile (.parsed (idDocument [['0', 'x', '1', '0', 'z', 'z'], ['-', '5'],
        ['0', 'x', '1', '0', '0', '0', '0', '0', '0', '1', '0']])) { nodes := [] }).1 = .ok () ∧
      configIds (loadFromFile (.parsed (idDocument [['0', 'x', '1', '0', 'z', 'z'], ['-', '5'],
        ['0', 'x', '1', '0', '0', '0', '0', '0', '0', '1', '0']])) { nodes := [] }).2.nodes =
          [16, -5, 16] ∧
      ¬ LoadsExactly (.parsed (idDocument [['0', 'x', '1', '0', 'z', 'z']])) { nodes := [] } ∧
      (loadFromFile (.parsed (idDocument [['z']])) { nodes := [] }).2.version = "1" ∧
      ¬ LoadsExactly (.parsed (idDocument [['z']])) { nodes := [] } := by
  refine ⟨rfl, by decide +kernel, fun h => ?_, rfl, fun h => ?_⟩
  · have hnot : ¬ IsExactId ['0', 'x', '1', '0', 'z', 'z'] := by
      rintro ⟨value, hn, -⟩
      exact not_numeral_of_scanNumber (show scanNumber _ = some (false, 16, ['z', 'z']) by rfl)
        (Or.inr (by decide)) value hn
    exact h.rejects _ rfl _ (by exact List.mem_singleton_self _) hnot rfl
  · have hversion := congrArg GatewayConfig.version (h.unchanged (by exact fun h => by cases h))
    exact absurd hversion (by decide)

end Example

end VhalCore.Gateway
