/-
The ways in which loading and replacing a registry fail, and what is reported for each.
-/
import RdmRegistry.Catalog
import RdmRegistry.Settings
import RdmRegistry.Validation

namespace RdmRegistry

/-- Why a file or a directory cannot be read. -/
inductive Obstacle where
  | missing
  | notADirectory
  | isADirectory
  | tooManyLinks
  | nameTooLong
  | nulInPath
  | notText
  /-- Any other reason that a system or a reader has, in its words. -/
  | other (text : String)
  deriving DecidableEq

def Obstacle.message : Obstacle → String
  | missing => "No such file or directory (os error 2)"
  | notADirectory => "Not a directory (os error 20)"
  | isADirectory => "Is a directory (os error 21)"
  | tooManyLinks => "Too many levels of symbolic links (os error 40)"
  | nameTooLong => "File name too long (os error 36)"
  | nulInPath => "file name contained an unexpected NUL byte"
  | notText => "stream did not contain valid UTF-8"
  | other text => text

/-- Why a registry cannot be loaded or replaced. -/
inductive Failure where
  | unreadable (path : Path) (obstacle : Obstacle)
  | malformed (path : Path) (message : String)
  | notADirectory (path : Path)
  | esta (clash : Clash)
  | manufacturer (id : UInt16) (clash : Clash)
  | repeatedManufacturer (id : UInt16)
  | invalid (violation : Violation)
  | misconfigured (fault : SettingsFault)
  | stale (current offered : Nat)
  deriving DecidableEq

namespace Failure

def message : Failure → String
  | unreadable path obstacle => "I/O error on " ++ path.display ++ ": " ++ obstacle.message
  | malformed path text => "failed to parse " ++ path.display ++ ": " ++ text
  | notADirectory path => path.display ++ " is not a directory"
  | esta clash => "ESTA store: " ++ clash.message
  | manufacturer id clash => "manufacturer " ++ Text.word id ++ " store: " ++ clash.message
  | repeatedManufacturer id => "manufacturer " ++ Text.word id ++ " listed twice"
  | invalid violation => "validation failed: " ++ violation.message
  | misconfigured fault => "configuration error: " ++ fault.message
  | stale current offered =>
    "refusing to replace version " ++ toString current ++ " with older version " ++
      toString offered

def outline : Failure → Text.Outline
  | unreadable path obstacle =>
    .record "Io" [("path", path.outline), ("source", .atom obstacle.message)]
  | malformed path text =>
    .record "Parse" [("path", path.outline), ("message", .atom (Text.quoted text))]
  | notADirectory path => .tuple "NotADirectory" [path.outline]
  | esta clash => .tuple "Store" [clash.outline]
  | manufacturer id clash =>
    .record "ManufacturerStore"
      [("manufacturer_id", .ofNat id.toNat), ("source", clash.outline)]
  | repeatedManufacturer id => .tuple "DuplicateManufacturer" [.ofNat id.toNat]
  | invalid violation => .tuple "Validation" [.atom (Text.quoted violation.message)]
  | misconfigured fault => .tuple "Config" [.atom (Text.quoted fault.message)]
  | stale current offered =>
    .record "StaleVersion" [("current", .ofNat current), ("offered", .ofNat offered)]

end Failure

def UnknownAddressing.outline (unknown : UnknownAddressing) : Text.Outline :=
  .tuple "UnknownSubDeviceRange" [.atom (Text.quoted unknown.word)]

end RdmRegistry
