import MediaLibrary.Failure
import MediaLibrary.StringTable.Basic
import MediaLibrary.Text.Blank
import MediaLibrary.Text.Numeral
import MediaLibrary.Text.Quoted
import MediaLibrary.Text.Utf8
/-! The settings of an open library. They come from named variables; one that is missing or cannot
be read leaves its setting at the default. Whether the settings are usable is a separate check. -/
namespace MediaLibrary

structure Settings where
  /-- Bytes by which a full playlist grows, and the table size of a new one. -/
  growthQuantum : Nat
  /-- The playlist that receives every path added anywhere. -/
  globalPlaylist : String
  /-- Whether paths are also added to the global playlist. -/
  copyToGlobal : Bool
  /-- Whether a new playlist is flushed to storage. -/
  syncOnCreate : Bool
  deriving DecidableEq, Repr

inductive SettingsError where
  | quantumTooSmall (quantum : Nat)
  | emptyGlobalName
  | globalNameTooLong (length : Nat)
  | globalNameHasNul
  deriving DecidableEq, Repr

def SettingsError.message : SettingsError → String
  | .quantumTooSmall quantum => s!"growth quantum {quantum} is below the minimum of 16 bytes"
  | .emptyGlobalName => "global playlist name must not be empty"
  | .globalNameTooLong length => s!"global playlist name is {length} bytes, longer than 115"
  | .globalNameHasNul => "global playlist name contains a NUL byte"

namespace Settings

def default : Settings := ⟨StringTable.defaultQuantum, ".global", true, true⟩

instance : Inhabited Settings := ⟨default⟩

/-- A growth step holds at least the header of a table. -/
def minQuantum : Nat := StringTable.headerSize

def maxGlobalName : Nat := 115

def quantumVariable : String := "MLIB_GROWTH_QUANTUM"
def globalPlaylistVariable : String := "MLIB_GLOBAL_PLAYLIST"
def copyVariable : String := "MLIB_MIRROR_GLOBAL"
def syncVariable : String := "MLIB_SYNC_ON_CREATE"

/-- The settings that `lookup` gives. Numbers and flags may stand between white space; the name is
taken as it is. -/
def ofVariables (lookup : String → Option String) : Settings where
  growthQuantum :=
    ((lookup quantumVariable).bind (Text.number? addressLimit <| Text.trim ·)).getD
      default.growthQuantum
  globalPlaylist := (lookup globalPlaylistVariable).getD default.globalPlaylist
  copyToGlobal :=
    ((lookup copyVariable).bind (Text.flag? <| Text.trim ·)).getD default.copyToGlobal
  syncOnCreate :=
    ((lookup syncVariable).bind (Text.flag? <| Text.trim ·)).getD default.syncOnCreate

/-- Settings are usable if a growth step holds a table header and the global name can be stored. -/
def validate (s : Settings) : Except SettingsError Unit :=
  let name := Text.bytes s.globalPlaylist
  if s.growthQuantum < minQuantum then .error (.quantumTooSmall s.growthQuantum)
  else if name = [] then .error .emptyGlobalName
  else if maxGlobalName < name.length then .error (.globalNameTooLong name.length)
  else if 0 ∈ name then .error .globalNameHasNul
  else .ok ()

def describe (s : Settings) : String :=
  "LibraryConfig \x7b growth_quantum: " ++ toString s.growthQuantum
    ++ ", global_playlist: " ++ Text.quoted s.globalPlaylist
    ++ ", mirror_to_global: " ++ toString s.copyToGlobal
    ++ ", sync_on_playlist_create: " ++ toString s.syncOnCreate ++ " \x7d"

end Settings
end MediaLibrary
