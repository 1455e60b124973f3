import Petalflow.Lib.Scan

namespace petalflow.schemafmt

inductive WorkflowKind where
  | agent | graph
deriving DecidableEq, Repr

def WorkflowKind.name : WorkflowKind → String
  | agent => "agent_workflow"
  | graph => "graph"

def legacyKindAgent : String := "agent-workflow"

def supportedAgentSchemaMajor : Nat := 1

def supportedGraphSchemaMajor : Nat := 1

def currentGraphSchemaVersion : String := "1.0.0"

def legacySchemaVersion : String := "legacy"

def normalizeKind (raw : String) : Except String (WorkflowKind × Bool) :=
  let kind := text.trimSpace raw
  if kind = WorkflowKind.agent.name then .ok (.agent, false)
  else if kind = legacyKindAgent then .ok (.agent, true)
  else if kind = WorkflowKind.graph.name then .ok (.graph, false)
  else .error s!"invalid kind {raw.quote}"

/-- The pattern `0|[1-9][0-9]*`. -/
def isNumber (cs : List Char) : Bool := cs.all Char.isDigit && cs ≠ [] && (cs = ['0'] || cs.head? ≠ some '0')

/-- The characters `[0-9A-Za-z-]`. -/
def isIdentifierChar (c : Char) : Bool := c.isAlphanum || c = '-'

/-- One part of a pre-release: a number, or a text that is not made of digits only. -/
def isPrerelease (cs : List Char) : Bool :=
  isNumber cs || (cs.all isIdentifierChar && cs.any fun c => c.isAlpha || c = '-')

def isBuild (cs : List Char) : Bool := cs.all isIdentifierChar && cs ≠ []

/-- The major version of a text that matches the pattern of a semantic version.
Only the build metadata can come after a `+`, only the pre-release after a `-`
before it. -/
def semverMajor (version : List Char) : Option (List Char) :=
  let (front, build) := text.cut '+' version
  let (release, prerelease) := text.cut '-' front
  match text.split '.' release with
  | [major, minor, patch] =>
    if isNumber major && isNumber minor && isNumber patch &&
        (prerelease.all fun cs => (text.split '.' cs).all isPrerelease) &&
        (build.all fun cs => (text.split '.' cs).all isBuild) then
      some major
    else none
  | _ => none

def digitsValue (cs : List Char) : Nat := cs.foldl (fun n c => 10 * n + (c.toNat - '0'.toNat)) 0

/-- The largest value of a 64-bit `int`. -/
def maxInt : Nat := 9223372036854775807

def validateSchemaVersion (version : String) (supportedMajor : Nat) : Except String Unit :=
  let v := text.trimSpace version
  if v = "" then .error "schema_version is required"
  else
    match semverMajor v.toList with
    | none =>
      .error s!"schema_version {version.quote} must be a valid semantic version (MAJOR.MINOR.PATCH)"
    | some digits =>
      let major := digitsValue digits
      if maxInt < major then
        .error ("parsing schema_version major: strconv.Atoi: parsing " ++ (String.ofList digits).quote ++
          ": value out of range")
      else if major ≠ supportedMajor then
        .error s!"schema_version {version.quote} has unsupported major {major} (supported: {supportedMajor}.x.x)"
      else .ok ()

example : (validateSchemaVersion " 1.2.3-alpha.1+b-1 " 1).isOk = true := by decide +kernel

example : (validateSchemaVersion "1.02.3" 1).isOk = false := by decide +kernel

end petalflow.schemafmt
