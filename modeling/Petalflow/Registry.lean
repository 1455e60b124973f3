import Petalflow.Lib.Dict

open dict

namespace petalflow.registry

structure PortDef where
  name : String
  type : String
deriving DecidableEq, Repr

structure PortSchema where
  inputs : List PortDef
  outputs : List PortDef
deriving DecidableEq, Repr

/-- The value under `tool_config` in a schema. Of a field only the name is read. -/
inductive ToolConfigSchema where
  | fieldSpecs (names : List String)
  | object (names : List String)
  | other
deriving DecidableEq, Repr

/-- A config schema: a map of field specs, a general map, or anything else. -/
inductive ConfigSchema where
  | fieldSpecs (names : List String)
  | object (toolConfig : Option ToolConfigSchema)
  | other
deriving DecidableEq, Repr

structure NodeTypeDef where
  type : String
  ports : PortSchema
  configSchema : ConfigSchema := .other
  isTool : Bool := false
  toolMode : String := ""
deriving DecidableEq, Repr

structure Registry where
  types : Dict String NodeTypeDef

namespace Registry

def newRegistry : Registry := { types := .empty }

def register (r : Registry) (typeDef : NodeTypeDef) : Registry :=
  { types := r.types.insert typeDef.type typeDef }

def delete (r : Registry) (typeName : String) : Registry := { types := r.types.erase typeName }

def get (r : Registry) (typeName : String) : Option NodeTypeDef := r.types.get? typeName

def hasTool (r : Registry) (toolID : String) : Bool :=
  match r.types.get? toolID with
  | some typeDef => typeDef.isTool
  | none => false

def toolMode (r : Registry) (toolID : String) : String :=
  match r.types.get? toolID with
  | some typeDef => typeDef.toolMode
  | none => ""

def all (r : Registry) : List NodeTypeDef := r.types.entries.map Prod.snd

end Registry

/-- A node type with the one input `input`. -/
def nodeType (type input : String) (outputs : List PortDef) : NodeTypeDef :=
  { type, ports := { inputs := [⟨"input", input⟩], outputs } }

def builtins : List NodeTypeDef :=
  [{ type := "llm_prompt"
     ports := { inputs := [⟨"input", "string"⟩, ⟨"context", "string"⟩], outputs := [⟨"output", "string"⟩] } },
   nodeType "llm_router" "string" [⟨"output", "string"⟩, ⟨"decision", "object"⟩],
   nodeType "rule_router" "any" [⟨"output", "any"⟩, ⟨"decision", "object"⟩],
   nodeType "filter" "array" [⟨"output", "array"⟩], nodeType "transform" "any" [⟨"output", "any"⟩],
   nodeType "merge" "any" [⟨"output", "any"⟩],
   { nodeType "tool" "object" [⟨"output", "object"⟩] with isTool := true, toolMode := "standalone" },
   nodeType "gate" "any" [⟨"output", "any"⟩], nodeType "guardian" "any" [⟨"output", "any"⟩, ⟨"result", "object"⟩],
   nodeType "human" "any" [⟨"output", "any"⟩, ⟨"response", "object"⟩], nodeType "map" "array" [⟨"output", "array"⟩],
   nodeType "cache" "any" [⟨"output", "any"⟩],
   nodeType "webhook_trigger" "any" [⟨"output", "any"⟩, ⟨"request", "object"⟩],
   nodeType "webhook_call" "any" [⟨"output", "any"⟩, ⟨"response", "object"⟩],
   nodeType "noop" "any" [⟨"output", "any"⟩], nodeType "func" "any" [⟨"output", "any"⟩],
   nodeType "conditional" "any" [⟨"output", "any"⟩, ⟨"decision", "object"⟩]]

def global : Registry := builtins.foldl Registry.register .newRegistry

end petalflow.registry
