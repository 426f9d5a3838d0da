import MediaLibrary.MediaName
import MediaLibrary.Session
import MediaLibrary.StringTable.Embedded
import MediaLibrary.Proofs.Session.Reopening
import MediaLibrary.Proofs.Session.Refusals
import MediaLibrary.Proofs.StringTable.History
import MediaLibrary.Proofs.LibraryFile.Reading
import MediaLibrary.Proofs.LibraryFile.Upkeep
import MediaLibrary.Proofs.StringTable.Resumption
import MediaLibrary.Proofs.StringTable.Guarded
import MediaLibrary.Proofs.LibraryFile.Guarded
import MediaLibrary.Proofs.Session.Enrollment
import MediaLibrary.Proofs.LibraryFile.Reordering
import MediaLibrary.Proofs.Session.Reordering
import MediaLibrary.Proofs.LibraryFile.Frame
import MediaLibrary.Proofs.StringTable.Probing
import MediaLibrary.Proofs.StringTable.Insertion
import MediaLibrary.Proofs.StringTable.Rounds
import MediaLibrary.Proofs.LibraryFile.AllOrNothing
import MediaLibrary.Proofs.LibraryFile.Independence
import MediaLibrary.Proofs.LibraryFile.Tiling
import MediaLibrary.Proofs.Session.Validation
import MediaLibrary.Proofs.Bytes.Field
import MediaLibrary.Proofs.Settings
import MediaLibrary.Proofs.StringTable.Sorting
import MediaLibrary.Proofs.LibraryFile.Reached
import MediaLibrary.Proofs.MediaName
