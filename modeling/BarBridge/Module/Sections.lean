import BarBridge.Module.Members
import BarBridge.Module.Name

/-!
# Finding the modules of a configuration

A configuration is one bar or a list of bars. Each bar is a section with a label that says where it
stood; elements of the list that are no objects are counted but hold nothing. A custom module is a
member of a section whose key has the form `custom/name`, with a name, and whose value is an object.
Modules are taken in the order of the document and given unique names across all sections.
-/

namespace BarBridge

/-- The sections of a configuration, each with its label. -/
def sections : Json → List (String × List (String × Json))
  | .array items =>
    items.zipIdx.filterMap fun (item, i) ↦
      item.object?.map fun members ↦ (s!"config[{i}]", members)
  | .object members => [("config", members)]
  | _ => []

/-- What stands before the name in a module's key. -/
def modulePrefix : List Char :=
  ['c', 'u', 's', 't', 'o', 'm', '/']

/-- The name in a module's key. -/
def moduleName? (key : String) : Option String :=
  if modulePrefix.isPrefixOf key.toList then
    let name := key.toList.drop modulePrefix.length
    if name = [] then none else some (String.ofList name)
  else none

/-- The module that a member of a section describes, under the name in its key. -/
def moduleOfMember? (source : String) (options : Options) (member : String × Json) :
    Option CustomModule := do
  let name ← moduleName? member.1
  let members ← member.2.object?
  return CustomModule.ofMembers name source members options

/-- The modules of a configuration under the names in their keys. -/
def candidates (config : Json) (options : Options) : List CustomModule :=
  (sections config).flatMap fun (source, members) ↦
    members.filterMap (moduleOfMember? source options)

/-- The modules of a configuration. -/
def extract (config : Json) (options : Options) : List CustomModule :=
  uniquelyNamed (candidates config options)

end BarBridge
