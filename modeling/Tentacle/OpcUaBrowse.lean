import Mathlib.Data.List.Nodup
import Mathlib.Data.List.Perm.Basic
import Tentacle.GraphSearch
import Tentacle.OpcUaEndpoints

/-!
# The browse of an OPC UA address space

The objects and views are gone through depth first, each at the first time that a walk leads to it
and no deeper than a limit, and the variables that they reference are collected. A variable that
two objects reference is collected twice. An object that is first come to at the limit is not looked
into again when a shorter walk leads to it.
-/

namespace OpcUaBrowse

open GoValues GraphSearch
open OpcUaEndpoints (toLower)

inductive NodeClass where
  | object | «variable» | view | other
  deriving DecidableEq, Repr

/-- A reference of a node; a name that is missing is empty. -/
structure Reference where
  nodeID : String
  nodeClass : NodeClass
  displayName : String := ""
  browseName : String := ""
  deriving DecidableEq, Repr

structure BrowseVariableInfo where
  nodeID : String
  displayName : String
  datatype : String
  opcuaDatatype : String
  deriving DecidableEq, Repr

/-- A server that answers every call. -/
structure Server where
  /-- The references of a node in pages: those of the answer to `Browse`, and those behind its
  continuation points. There are none for a text that is no node ID. -/
  browse : String → List (List Reference)
  /-- The `DataType` of a variable, if the server has it. -/
  dataType : String → Option String
  /-- The `BrowseName` of a data type, if there is such a node and it has a name. -/
  browseName : String → Option String

def builtinDataTypes : List (String × String) := [
  ("i=1", "Boolean"), ("i=2", "SByte"), ("i=3", "Byte"), ("i=4", "Int16"), ("i=5", "UInt16"),
  ("i=6", "Int32"), ("i=7", "UInt32"), ("i=8", "Int64"), ("i=9", "UInt64"), ("i=10", "Float"),
  ("i=11", "Double"), ("i=12", "String"), ("i=13", "DateTime"), ("i=14", "Guid"),
  ("i=15", "ByteString"), ("i=16", "XmlElement"), ("i=17", "NodeId"), ("i=19", "StatusCode"),
  ("i=20", "QualifiedName"), ("i=21", "LocalizedText"), ("i=22", "ExtensionObject"),
  ("i=24", "BaseDataType"), ("i=26", "Number"), ("i=27", "Integer"), ("i=28", "UInteger")]

def numericTypes : List String := [
  "sbyte", "byte", "int16", "uint16", "int32", "uint32", "int64", "uint64", "float", "double",
  "number", "integer", "uinteger", "i=1", "i=2", "i=3", "i=4", "i=5", "i=6", "i=7", "i=8", "i=9",
  "i=10", "i=11"]

def opcuaToNatsDatatype (opcuaDatatype : String) : String :=
  if toLower opcuaDatatype = "boolean" then "boolean"
  else if toLower opcuaDatatype ∈ numericTypes then "number"
  else "string"

/-- The text without the first place at which it has the pattern. -/
def dropFirst (pattern : List Char) : List Char → List Char
  | [] => []
  | c :: cs =>
    if pattern.isPrefixOf (c :: cs) then (c :: cs).drop pattern.length
    else c :: dropFirst pattern cs

/-! ## The walk -/

structure Browse where
  discovered : List BrowseVariableInfo := []
  visited : List String := []
  dataTypeCache : GoMap String String := ∅

/-- The name of the data type, and the cache with it. -/
def resolveDataTypeName (server : Server) (dataTypeNodeID : String) (cache : GoMap String String) :
    String × GoMap String String :=
  let normalized := String.ofList (dropFirst "ns=0;".toList dataTypeNodeID.toList)
  match builtinDataTypes.lookup normalized with
  | some name => (name, cache)
  | none =>
    match cache.lookup dataTypeNodeID with
    | some name => (name, cache)
    | none =>
      let name := (server.browseName dataTypeNodeID).getD dataTypeNodeID
      (name, cache.insert dataTypeNodeID name)

def displayNameOf (ref : Reference) : String :=
  if ref.displayName ≠ "" then ref.displayName
  else if ref.browseName ≠ "" then ref.browseName
  else ref.nodeID

def discoverVariable (server : Server) (s : Browse) (ref : Reference) : Browse :=
  let (opcuaDatatype, cache) := match server.dataType ref.nodeID with
    | some dtStr => resolveDataTypeName server dtStr s.dataTypeCache
    | none => ("String", s.dataTypeCache)
  { s with
    discovered := s.discovered ++ [{
      nodeID := ref.nodeID
      displayName := displayNameOf ref
      datatype := opcuaToNatsDatatype opcuaDatatype
      opcuaDatatype }]
    dataTypeCache := cache }

/-- The body of the loop over the references of a node. -/
def browseRef (server : Server) (recurse : String → Browse → Browse) (s : Browse)
    (ref : Reference) : Browse :=
  match ref.nodeClass with
  | .variable => discoverVariable server s ref
  | .object | .view => recurse ref.nodeID s
  | .other => s

/-- The recursion, with the levels that are left: none at a depth beyond the limit. -/
def browseRecursive (server : Server) : Nat → String → Browse → Browse
  | 0, _, s => s
  | levels + 1, nodeID, s =>
    if nodeID ∈ s.visited then s
    else (server.browse nodeID).flatten.foldl (browseRef server (browseRecursive server levels))
      { s with visited := nodeID :: s.visited }

def browseAddressSpace (server : Server) (startNodeID : String) (maxDepth : Int) :
    List BrowseVariableInfo :=
  (browseRecursive server (maxDepth + 1).toNat startNodeID {}).discovered

/-! ## What a part of the walk does -/

def isNode (ref : Reference) : Bool := ref.nodeClass = .object ∨ ref.nodeClass = .view

/-- The objects and views among references. -/
def nodeIDs (refs : List Reference) : List String := (refs.filter isNode).map (·.nodeID)

def nodesOf (server : Server) (nodeID : String) : List String :=
  nodeIDs (server.browse nodeID).flatten

/-- The variables among references, once for each reference. -/
def variableIDs (refs : List Reference) : List String :=
  (refs.filter (·.nodeClass = .variable)).map (·.nodeID)

def variablesOf (server : Server) (nodeID : String) : List String :=
  variableIDs (server.browse nodeID).flatten

def Browse.ids (s : Browse) : List String := s.discovered.map (·.nodeID)

variable {server : Server}

/-- The walk goes on from one state to another: it visits the given nodes, and collects the given
variables and those of the nodes. -/
structure Advances (server : Server) (new collected : List String) (s t : Browse) : Prop where
  visited : t.visited = new ++ s.visited
  ids : t.ids.Perm (s.ids ++ (collected ++ new.flatMap (variablesOf server)))

theorem Advances.refl (s : Browse) : Advances server [] [] s s :=
  ⟨rfl, by rw [List.flatMap_nil, List.append_nil, List.append_nil]⟩

/-- One part of the browse after the other advances by both. -/
theorem Advances.trans {new new' xs ys : List String} {s t u : Browse}
    (hst : Advances server new xs s t) (htu : Advances server new' ys t u) :
    Advances server (new' ++ new) (xs ++ ys) s u := by
  constructor
  · rw [htu.visited, hst.visited, List.append_assoc]
  · refine htu.ids.trans ((hst.ids.append_right _).trans ?_)
    rw [List.flatMap_append]
    simp only [List.append_assoc]
    refine List.Perm.append_left _ (List.Perm.append_left _ ?_)
    -- the variables of the nodes visited first go behind those visited last
    refine List.perm_append_comm.trans ?_
    rw [List.append_assoc]

/-- The node can be come to in as many hops as the browse may go deep. -/
def Within (server : Server) (start : String) (maxDepth : Int) (nodeID : String) : Prop :=
  ∃ k : Nat, k ≤ maxDepth ∧ Hops (fun a b => b ∈ nodesOf server a) start k nodeID

/-- The browse returns each variable that an object or view within its depth references once, and no
other variable. -/
structure Exact (server : Server) (startNodeID : String) (maxDepth : Int) : Prop where
  once : ∀ nodeID id, Within server startNodeID maxDepth nodeID → id ∈ variablesOf server nodeID →
    ((browseAddressSpace server startNodeID maxDepth).map (·.nodeID)).count id = 1
  only : ∀ v ∈ browseAddressSpace server startNodeID maxDepth, ∃ nodeID,
    Within server startNodeID maxDepth nodeID ∧ v.nodeID ∈ variablesOf server nodeID

/-- A folder with two machines, and a variable that both of them reference. -/
def sharedServer : Server where
  browse nodeID :=
    if nodeID = "i=85" then [[⟨"ns=2;s=a", .object, "", ""⟩, ⟨"ns=2;s=b", .object, "", ""⟩]]
    else if nodeID = "ns=2;s=a" ∨ nodeID = "ns=2;s=b" then
      [[⟨"ns=2;s=speed", .variable, "", ""⟩]]
    else []
  dataType _ := none
  browseName _ := none

/-- It is returned twice. -/
example : (browseAddressSpace sharedServer "i=85" 1).map (·.nodeID) =
    ["ns=2;s=speed", "ns=2;s=speed"] := by decide

end OpcUaBrowse
