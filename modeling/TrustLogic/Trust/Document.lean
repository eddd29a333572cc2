import TrustLogic.Trust.Codec
import TrustLogic.Trust.Frame

/-!
# Frames of trust as documents

A frame is written as one object. The field `relation` holds the trust, an object by truster of
objects by trustee of numbers; every other field is a variable and holds its degrees, an object by
agent of numbers. So a variable of the name `relation` can be kept in a frame but not in a document.

* `Frame.content` – what is written of a frame.
* `Frame.ofContent` – the frame that a content is read as. Without a field for the trust there is
  none. Of repeated names of anything else the last one counts.
* `Frame.read` – the frame in a document.
-/

namespace TrustLogic.Trust

/-- The name of the field that holds the trust. -/
def trustField : String := "relation"

/-! ### Writing -/

/-- The fields of a table, whose values are written by `write`. -/
def fieldsOfTable {α : Type} (write : α → Content) (t : Table α) : List (String × Content) :=
  t.toList.map fun entry => (entry.1, write entry.2)

/-- A table of degrees. -/
def contentOfRow (t : Table Degree) : Content := .object (fieldsOfTable .number t)

/-- What is written of a frame. -/
def Frame.content (f : Frame) : Content :=
  .object ((trustField, .object (fieldsOfTable contentOfRow f.trust)) ::
    fieldsOfTable contentOfRow f.degrees)

/-! ### Reading -/

/-- Values that `read` accepts, entered into a table one after the other. -/
def tableOfFields {α : Type} (read : Content → Except String α)
    (fields : List (String × Content)) : Except String (Table α) :=
  (fields.mapM fun field => (read field.2).map fun a => (field.1, a)).map fun entries =>
    entries.foldl (fun t entry => t.insert entry.1 entry.2) ∅

namespace Codec

variable (k : Codec)

/-- A table of values that `read` accepts. -/
def table {α : Type} (read : Content → Except String α) (c : Content) :
    Except String (Table α) :=
  (k.fields c).bind (tableOfFields read)

/-- A table of degrees. -/
def row : Content → Except String (Table Degree) := k.table k.number

/-- A table of tables of degrees. -/
def grid : Content → Except String Grid := k.table k.row

end Codec

namespace Frame

/-- The frame that a content is read as. -/
def ofContent (k : Codec) (c : Content) : Except String Frame :=
  (k.fields c).bind fun fields =>
    (k.split trustField fields).bind fun parts =>
      (parts.1.elim (.ok ∅) k.grid).bind fun trust =>
        (tableOfFields k.row parts.2).map fun degrees => ⟨degrees, trust⟩

/-- The frame in a document. -/
def read (k : Codec) (gs : Glyphs) : Except String Frame :=
  (k.read gs).bind (ofContent k)

end Frame

end TrustLogic.Trust
