import MediaLibrary.Settings
import MediaLibrary.StringTable.Growth
/-! Why an operation on a library is refused, and what can be wrong with a library's file. -/
namespace MediaLibrary

inductive Damage where
  | table (damage : TableDamage)
  | badMagic
  | fileTooLarge (size : Nat)
  | lengthNotSize (recorded size : Nat)
  | lengthsDisagree (recorded mapped size : Nat)
  | headerOverrun (offset size : Nat)
  | badPlaylistMagic (magic offset : Nat)
  | playlistTooShort (offset length : Nat)
  | playlistOverrun (offset length : Nat)
  | tableNotFilling (length offset : Nat)
  | miscounted (offset counted held : Nat)
  | duplicateName (name : Bytes)
  | uncovered (covered length : Nat)
  | mediaMiscounted (counted : Nat) (globalPlaylist : String)
  | described (text : String)
  deriving DecidableEq, Repr

def Damage.message : Damage → String
  | .table damage => damage.message
  | .badMagic => "bad library magic"
  | .fileTooLarge size => s!"file size {size} exceeds 4 GiB"
  | .lengthNotSize recorded size =>
    s!"header length {recorded} does not match file size {size}"
  | .lengthsDisagree recorded mapped size =>
    s!"header length {recorded} vs mapped {mapped} vs file {size}"
  | .headerOverrun offset size =>
    s!"playlist header at {offset} overruns a {size}-byte library"
  | .badPlaylistMagic magic offset => s!"bad playlist magic {Text.hexWord magic} at {offset}"
  | .playlistTooShort offset length =>
    s!"playlist at {offset} claims {length} bytes, below the 144-byte minimum"
  | .playlistOverrun offset length =>
    s!"playlist at {offset} of {length} bytes overruns the library"
  | .tableNotFilling length offset =>
    s!"bucket of {length} bytes does not fill playlist at {offset}"
  | .miscounted offset counted held =>
    s!"playlist at {offset} counts {counted} paths but holds {held}"
  | .duplicateName name => s!"duplicate playlist name `{Text.lossy name}`"
  | .uncovered covered length => s!"records cover {covered} of {length} bytes"
  | .mediaMiscounted counted globalPlaylist =>
    s!"media_count {counted} disagrees with `{globalPlaylist}`"
  | .described text => text

/-- An argument outside what the library's size allows, or a name that may not be empty. -/
inductive BadArgument where
  | expand (size length : Nat)
  | truncate (size length : Nat)
  | excise (start stop length : Nat)
  | insert (offset length : Nat)
  | shift (start stop target size : Nat)
  | emptyPlaylistName
  | described (text : String)
  deriving DecidableEq, Repr

def BadArgument.message : BadArgument → String
  | .expand size length => s!"expand to {size} does not grow a {length}-byte library"
  | .truncate size length => s!"truncate to {size} outside [1024, {length}]"
  | .excise start stop length => s!"excise [{start}, {stop}) outside [1024, {length}]"
  | .insert offset length => s!"insert at {offset} outside [1024, {length}]"
  | .shift start stop target size =>
    s!"shift {start}..{stop} -> {target} outside a {size}-byte image"
  | .emptyPlaylistName => "playlist name must not be empty"
  | .described text => text

inductive LibraryError where
  | io (error : FileError)
  | notALibrary (path : String)
  | corrupt (damage : Damage)
  | invalidField (field : String) (error : FieldError)
  | invalidArgument (argument : BadArgument)
  | tooLarge
  | alreadyOpen (name : String)
  | playlistExists (name : String)
  | playlistNotFound (name : String)
  | pathExists (path : String)
  | table (error : TableError)
  | settings (error : SettingsError)
  | closed
  | unmapped
  | lockPoisoned
  deriving DecidableEq, Repr

/-- What a caller can do about an error: mend the input, give up on the file, try again later, or
look to the state of the handle. -/
inductive ErrorKind where
  | validation
  | corruption
  | resource
  | state
  deriving DecidableEq, Repr

def TableError.kind : TableError → ErrorKind
  | .corrupt _ => .corruption
  | .grow _ | .overflow => .resource
  | .tooSmall _ | .duplicate | .interiorNul | .zeroQuantum => .validation

namespace LibraryError

def message : LibraryError → String
  | .io error => s!"io error: {error.message}"
  | .notALibrary path => s!"{path} is not a media library"
  | .corrupt damage => s!"corrupt library: {damage.message}"
  | .invalidField field error => s!"invalid {field}: {error.message}"
  | .invalidArgument argument => s!"invalid argument: {argument.message}"
  | .tooLarge => "library would exceed the 4 GiB addressing limit"
  | .alreadyOpen name => s!"a library named `{name}` is already open"
  | .playlistExists name => s!"playlist `{name}` already exists"
  | .playlistNotFound name => s!"playlist `{name}` not found"
  | .pathExists path => s!"`{path}` is already in the playlist"
  | .table error => error.message
  | .settings error => error.message
  | .closed => "library is closed"
  | .unmapped => "library is not mapped; a previous resize failed"
  | .lockPoisoned => "library lock poisoned"

def kind : LibraryError → ErrorKind
  | .io _ | .tooLarge => .resource
  | .notALibrary _ | .corrupt _ => .corruption
  | .invalidField _ _ | .invalidArgument _ | .playlistExists _ | .playlistNotFound _
  | .pathExists _ | .settings _ => .validation
  | .alreadyOpen _ | .closed | .unmapped | .lockPoisoned => .state
  | .table error => error.kind

/-- The text of the error underneath, where there is one beside the message. -/
def source? : LibraryError → Option String
  | .io error => some error.message
  | .invalidField _ error => some error.message
  | .table (.grow error) => some error.message
  | _ => none

/-- A table's error in the library's terms, where it has terms of its own for it. -/
def ofTable : TableError → LibraryError
  | .corrupt damage => .corrupt (.table damage)
  | .grow error => .io error
  | .overflow => .tooLarge
  | error => .table error

/-- The refusal that a growing table is told of. -/
def toFileError : LibraryError → FileError
  | .io error => error
  | error => .other error.message

end LibraryError
end MediaLibrary
