import LiveGraph.Config
import LiveGraph.Json.Reader
import LiveGraph.Kind
import LiveGraph.Size

/-!
# Configurations as documents

A graph's configuration is an object with the members `nodes`, `edges` and `lock_name`; the first
two are objects with `block_size` and `max_modified`. Every member may be left out and then has its
default value. An array of the members in this order does as well.
-/

namespace LiveGraph

/-- The size that a document denotes. -/
def Json.size? (doc : Json) : Option Nat :=
  doc.natural?.filter (· < sizeLimit)

namespace StoreConfig

/-- The members of a store's configuration. -/
def fieldNames : List String := ["block_size", "max_modified"]

/-- The configuration of a store that a document denotes. -/
def ofJson? (doc : Json) : Option StoreConfig := do
  let members ← doc.fields? fieldNames
  let blockSize ← Json.field members "block_size" ({} : StoreConfig).blockSize Json.size?
  let maxModified ← Json.field members "max_modified" ({} : StoreConfig).maxModified Json.size?
  return { blockSize, maxModified }

end StoreConfig

namespace GraphConfig

/-- The members of a graph's configuration. -/
def fieldNames : List String := ["nodes", "edges", "lock_name"]

/-- The configuration of a graph that a document denotes. -/
def ofJson? (doc : Json) : Option GraphConfig := do
  let members ← doc.fields? fieldNames
  let nodes ← Json.field members "nodes" {} StoreConfig.ofJson?
  let edges ← Json.field members "edges" {} StoreConfig.ofJson?
  let lockName ← Json.field members "lock_name" ({} : GraphConfig).lockName Json.string?
  return { nodes, edges, lockName }

/-- Reads a configuration from text by a reader of documents, and checks it. -/
def parseBy (read : String → Option Json) (text : String) : Except ConfigError GraphConfig :=
  match (read text).bind ofJson? with
  | none => .error .malformed
  | some c => c.validate.map fun _ => c

/-- Reads a configuration from text, and checks it. -/
def parse (text : String) : Except ConfigError GraphConfig := parseBy Json.parse? text

/-- Reads a configuration from the content of a file, if there is one. -/
def ofFile (content : Option ByteArray) : Except ConfigError GraphConfig :=
  match content.bind String.fromUTF8? with
  | none => .error .unreadable
  | some text => parse text

end GraphConfig

/-- The kind that a document denotes: its key, or an object with the key as its one member, which is
null. -/
def Kind.ofJson? : Json → Option Kind
  | .string s => Kind.ofKey? s
  | .object [(s, .null)] => Kind.ofKey? s
  | _ => none

end LiveGraph
