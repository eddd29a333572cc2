import TrustLogic.Error
import TrustLogic.Kripke.Document
import TrustLogic.Settings
import TrustLogic.Trust.JsonCodec

/-!
# Documents

Settings, drafts of models and frames of trust are kept in JSON documents, which come as texts or as
files.

* `readText`, `readFile` – what a document holds, according to a reader that may refuse it.
* `Settings.ofText`, `Kripke.Draft.ofText`, `Trust.Frame.ofText` – the three kinds, from a text.
* `Settings.ofFile`, `Kripke.Draft.ofFile`, `Trust.Frame.ofFile` – the same from a file.
* `Trust.Frame.readBack` – a frame that is written and read again.

Frames are read and written by way of a codec. The command uses `Trust.Codec.standard`.
-/

namespace TrustLogic

/-- What a text holds. -/
def readText {α : Type} (read : Glyphs → Except String α) (s : String) : Except Error α :=
  (read (Glyphs.ofText s)).mapError fun reason => .document (.badText reason)

/-- What was found where a file was asked for. -/
inductive FileContent
  /-- Nothing, for the given reason. -/
  | missing (reason : String)
  /-- Something that cannot be read, such as a directory. -/
  | unreadable (reason : String)
  /-- The bytes of the file. -/
  | bytes (b : ByteArray)

/-- What a file holds. -/
def readFile {α : Type} (read : Glyphs → Except String α) (path : String) :
    FileContent → Except Error α
  | .missing reason => .error (.document (.noFile path reason))
  | .unreadable reason => .error (.document (.badFile path reason))
  | .bytes b =>
    (read (Glyphs.ofBytes b)).mapError fun reason => .document (.badFile path reason)

/-! ### Settings and drafts -/

/-- Settings from the text of a document. -/
def Settings.ofText : String → Except Error Settings := readText (Json.reader Settings.ofJson?)

/-- Settings from a file. -/
def Settings.ofFile : (path : String) → FileContent → Except Error Settings :=
  readFile (Json.reader Settings.ofJson?)

/-- A draft from the text of a document. -/
def Kripke.Draft.ofText : String → Except Error Kripke.Draft :=
  readText (Json.reader Kripke.Draft.ofJson?)

/-- A draft from a file. -/
def Kripke.Draft.ofFile : (path : String) → FileContent → Except Error Kripke.Draft :=
  readFile (Json.reader Kripke.Draft.ofJson?)

/-! ### Frames of trust -/

namespace Trust.Frame

/-- A frame from the text of a document. -/
def ofText (k : Codec) : String → Except Error Frame := readText (read k)

/-- A frame from a file. -/
def ofFile (k : Codec) : (path : String) → FileContent → Except Error Frame := readFile (read k)

/-- A frame from the document that another one is written as. -/
def readBack (k : Codec) (f : Frame) : Except Error Frame := ofText k (k.write f.content)

end Trust.Frame

end TrustLogic
