import MediaLibrary.Text.Pieces
/-! Recognising media files by the end of their names. -/
namespace MediaLibrary.MediaName

def audioExtensions : List String := ["mp3", "aac", "ac3", "wav", "wave", "flac", "wma"]

def videoExtensions : List String := ["mkv", "mpeg", "avi", "wmv"]

def endsInAny (file : String) (extensions : List String) : Bool :=
  extensions.any fun extension => extension.toList.isSuffixOf file.toList

def isMedia (file : String) : Bool :=
  endsInAny file audioExtensions || endsInAny file videoExtensions

/-- The items of a delimited list of extensions. -/
def parseList (list : String) (delimiter : Char) : List String :=
  Text.items delimiter list

end MediaLibrary.MediaName
