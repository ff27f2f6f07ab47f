/-
Device addresses inside a responder, and the rules that say which of them a request may be sent
to. Number 0 is the root device, 1 to 512 are sub-devices, and one broadcast address stands for
all sub-devices.
-/

namespace RdmRegistry

/-- The address of the root device. -/
def rootDevice : UInt16 := 0

/-- The highest address of a sub-device. -/
def lastSubDevice : UInt16 := 512

/-- The broadcast address of all sub-devices. -/
def allSubDevices : UInt16 := 0xFFFF

/-- Which addresses a GET or SET of a parameter may be sent to. -/
inductive Addressing where
  /-- The root device alone. -/
  | root
  /-- The root device, one sub-device, or all sub-devices at once. -/
  | rootOrAll
  /-- The root device or one sub-device. -/
  | rootOrOne
  /-- One sub-device. -/
  | subDevice
  deriving DecidableEq, Inhabited

namespace Addressing

/-- Every rule. -/
def all : List Addressing :=
  [root, rootOrAll, rootOrOne, subDevice]

/-- The address is a legal destination. -/
def allows : Addressing → UInt16 → Bool
  | root, device => device == rootDevice
  | rootOrAll, device => device ≤ lastSubDevice || device == allSubDevices
  | rootOrOne, device => device ≤ lastSubDevice
  | subDevice, device => 1 ≤ device && device ≤ lastSubDevice

/-- The word for the rule in data files. -/
def token : Addressing → String
  | root => "ROOT_DEVICE"
  | rootOrAll => "ROOT_OR_ALL_SUBDEVICE"
  | rootOrOne => "ROOT_OR_SUBDEVICE"
  | subDevice => "ONLY_SUBDEVICES"

def label : Addressing → String
  | root => "RootDevice"
  | rootOrAll => "AnySubDevice"
  | rootOrOne => "NonBroadcastSubDevice"
  | subDevice => "SpecificSubDevice"

/-- The rule that a word of a data file stands for. -/
def ofToken? (word : String) : Option Addressing :=
  all.find? fun rule => rule.token == word

end Addressing

/-- A word that stands for no addressing rule. -/
structure UnknownAddressing where
  word : String
  deriving DecidableEq

def UnknownAddressing.message (unknown : UnknownAddressing) : String :=
  "unknown sub-device range: " ++ unknown.word

/-- The rule that a word stands for, or the word as an error. -/
def Addressing.ofToken (word : String) : Except UnknownAddressing Addressing :=
  match ofToken? word with
  | some rule => .ok rule
  | none => .error ⟨word⟩

end RdmRegistry
