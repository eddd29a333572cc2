import TrustLogic.Degree.Basic
import TrustLogic.Text.Utf8

/-!
# Codecs

A frame of trust becomes a document in two steps. The frame decides on a content, which consists of
numbers in objects in objects, and a codec writes the content as a text. On the way back the codec
reads a content and takes it apart. What a frame does is fixed by the frame; which codec it uses is
not, and all that is ever asked of one is written down here.

* `Content` – what a document holds, as far as frames are made of it.
* `Codec` – what a frame needs for being written and read: a writer, a reader, and what a content is
  taken for.
* `Codec.Faithful` – what a codec promises. Finite numbers and all names come back unchanged, and
  other numbers are written as nothing, which is no number. A field that is known by its name is
  told from all others, and refused where it stands twice.
-/

namespace TrustLogic.Trust

/-- What a document holds. A document of anything else, such as texts or lists, holds no frame. -/
inductive Content
  /-- Nothing. -/
  | null
  | number (x : Degree)
  /-- An object, with its fields as they are written. -/
  | object (fields : List (String × Content))

/-- Whether objects stand within each other in so many levels at most. -/
def Content.Within : Nat → Content → Prop
  | 0, object _ => False
  | levels + 1, object fields => ∀ field ∈ fields, field.2.Within levels
  | _, _ => True

/-- **A codec.** What is refused is refused for a reason. -/
structure Codec where
  /-- Writes a content as a document. -/
  write : Content → String
  /-- Reads the content of a document. -/
  read : Glyphs → Except String Content
  /-- The number that a content is taken for. -/
  number : Content → Except String Degree
  /-- The fields of a content that is taken for an object. -/
  fields : Content → Except String (List (String × Content))
  /-- The value of the field that is known by the given name, if it is there, and the fields that
  are not known. -/
  split : (name : String) → List (String × Content) →
    Except String (Option Content × List (String × Content))

namespace Codec

/-- What is read where a content has been written. -/
def reread (k : Codec) (c : Content) : Except String Content :=
  k.read (Glyphs.ofText (k.write c))

/-- **What a codec promises.** Objects are promised to be read back up to three levels only, since
readers may refuse documents that nest deep. -/
structure Faithful (k : Codec) : Prop where
  /-- A finite number is read back. -/
  reread_number : ∀ x : Degree, x.isFinite = true → k.reread (.number x) = .ok (.number x)
  /-- Any other number is written as nothing. -/
  write_number : ∀ x : Degree, x.isFinite = false → k.write (.number x) = k.write .null
  /-- Nothing is read back as nothing. -/
  reread_null : k.reread .null = .ok .null
  /-- An object is read back with the same names in the same order, each with what its value is
  read back as. -/
  reread_object : ∀ (fields : List (String × Content)) (back : Content → Content),
    (Content.object fields).Within 3 →
    (∀ field ∈ fields, k.reread field.2 = .ok (back field.2)) →
      k.reread (.object fields) = .ok (.object (fields.map fun field => (field.1, back field.2)))
  /-- A number is taken for itself. -/
  number_number : ∀ x : Degree, x.isFinite = true → k.number (.number x) = .ok x
  /-- Nothing is no number. -/
  number_null : ∃ reason, k.number .null = .error reason
  /-- An object is taken for its fields. -/
  fields_object : ∀ fields, k.fields (.object fields) = .ok fields
  /-- The fields that are not known are exactly those of other names. -/
  split_once : ∀ (name : String) (fields : List (String × Content)),
    (fields.filter fun field => field.1 = name).length ≤ 1 →
      k.split name fields = .ok ((fields.find? fun field => field.1 = name).map Prod.snd,
        fields.filter fun field => field.1 ≠ name)
  /-- A field that is known is refused where it stands twice. -/
  split_repeated : ∀ (name : String) (fields : List (String × Content)),
    1 < (fields.filter fun field => field.1 = name).length →
      ∃ reason, k.split name fields = .error reason

end Codec

end TrustLogic.Trust
