/-
A parameter of the RDM protocol: its name and value, the message formats of its GET and SET, and
the addresses that each of the two may be sent to. The formats belong to the caller (the type
`φ`); nothing here looks inside them.
-/
import RdmRegistry.Addressing
import RdmRegistry.Text.Hex
import RdmRegistry.Text.Outline
import RdmRegistry.Text.Quoted

namespace RdmRegistry

/-- One of the two commands of a parameter. -/
structure Command (φ : Type) where
  request : Option φ := none
  response : Option φ := none
  destinations : Addressing := .root
  deriving DecidableEq

namespace Command

variable {φ : Type}

/-- A command can be sent when its request has a format. -/
def isSupported (command : Command φ) : Bool :=
  command.request.isSome

/-- The command may be sent to the address. -/
def accepts (command : Command φ) (device : UInt16) : Bool :=
  command.destinations.allows device

def withFormats (command : Command φ) (request response : Option φ) : Command φ :=
  { command with request, response }

def withDestinations (command : Command φ) (destinations : Addressing) : Command φ :=
  { command with destinations }

end Command

/-- A parameter. Without further word it has no formats and is sent to the root device. -/
structure Parameter (φ : Type) where
  name : String
  value : UInt16
  get : Command φ := {}
  set : Command φ := {}
  deriving DecidableEq

namespace Parameter

variable {φ : Type}

def mapGet (p : Parameter φ) (f : Command φ → Command φ) : Parameter φ :=
  { p with get := f p.get }

def mapSet (p : Parameter φ) (f : Command φ → Command φ) : Parameter φ :=
  { p with set := f p.set }

/-- Two parameters that share their value or their name cannot stand in one scope. -/
def collides (p q : Parameter φ) : Bool :=
  p.value == q.value || p.name == q.name

theorem collides_iff {p q : Parameter φ} :
    p.collides q = true ↔ p.value = q.value ∨ p.name = q.name := by
  simp [collides]

/-- The order of names: by the bytes of their UTF-8 form. -/
def compareNames (a b : String) : Ordering :=
  compare (Text.Utf8.encode a) (Text.Utf8.encode b)

/-- The name and the value, for messages. -/
def title (name : String) (value : UInt16) : String :=
  name ++ " (" ++ Text.word value ++ ")"

/-- The parameter for messages. -/
def display (p : Parameter φ) : String :=
  title p.name p.value

/-- The parameter in a debug listing; of a format it says only whether there is one. -/
def outline (p : Parameter φ) : Text.Outline :=
  .record "PidDescriptor"
    [("name", .atom (Text.quoted p.name)),
      ("value", .atom (Text.word p.value)),
      ("get_request", .ofBool p.get.request.isSome),
      ("get_response", .ofBool p.get.response.isSome),
      ("set_request", .ofBool p.set.request.isSome),
      ("set_response", .ofBool p.set.response.isSome),
      ("get_sub_device_range", .atom p.get.destinations.label),
      ("set_sub_device_range", .atom p.set.destinations.label)]

end Parameter

end RdmRegistry
