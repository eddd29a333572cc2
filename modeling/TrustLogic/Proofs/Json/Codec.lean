import TrustLogic.Proofs.Degree.Digits
import TrustLogic.Proofs.Json.Writing

/-!
# What the codec of JSON documents promises

The codec of JSON documents is faithful, provided that its reader of numbers gives back every finite
degree from the number that it is written as (`TrustLogic.Trust.Codec.faithful_json`). Nothing else
has to be known of this reader. A reader that rounds correctly is such a one, so there is a faithful
codec (`TrustLogic.Trust.Codec.faithful_exact`).

Texts are left behind first. The text of a content denotes a JSON value
(`TrustLogic.Trust.Content.denotes_chars`), and everything else is about reading values.
-/

namespace TrustLogic.Trust

/-! ### Contents as values -/

mutual

/-- A content as a value of a document. -/
def Content.toJson : Content → Json
  | .null => .null
  | .number x =>
    match x.numeral? with
    | some n => .number n
    | none => .null
  | .object fields => Json.ofMembers (jsonOfFields fields)

/-- The contents of some fields, each as a value. -/
def jsonOfFields : List (String × Content) → List (String × Json)
  | [] => []
  | (name, c) :: fields => (name, c.toJson) :: jsonOfFields fields

end

theorem denotes_documentDegree (x : Degree) :
    Json.Denotes (documentDegree x) (Content.number x).toJson := by
  rw [documentDegree, Content.toJson]
  cases h : x.numeral? with
  | none => exact Json.denotes_null
  | some n => exact Json.denotes_number (Degree.wellWritten_of_numeral? h)

mutual

/-- **The text of a content denotes its value.** -/
theorem Content.denotes_chars : ∀ c : Content, Json.Denotes c.chars c.toJson
  | .null => Json.denotes_null
  | .number x => denotes_documentDegree x
  | .object fields => Json.denotes_object (denoteFields_charsOfFields fields)

theorem denoteFields_charsOfFields : ∀ fields : List (String × Content),
    Json.DenoteFields (charsOfFields fields) (jsonOfFields fields)
  | [] => .nil
  | (_, c) :: fields => .cons ⟨rfl, c.denotes_chars⟩ (denoteFields_charsOfFields fields)

end

/-! ### The codec -/

namespace Codec

variable {number? : Json.Numeral → Option Degree}

/-- A content is read back by way of the value that its text denotes. -/
theorem reread_json_eq_ok_iff {c c' : Content} :
    (json number?).reread c = .ok c' ↔ Content.ofJson? number? c.toJson = some c' := by
  have hglyphs : Glyphs.ofText (String.ofList c.chars) = c.chars.map some := by
    rw [Glyphs.ofText, String.toList_ofList]
  change Json.reader _ (Glyphs.ofText (String.ofList c.chars)) = _ ↔ _
  rw [Json.reader, hglyphs, c.denotes_chars.ofGlyphs?, Option.bind_some]
  cases Content.ofJson? number? c.toJson <;> simp

/-- Fields are read if the value of each of them is. -/
theorem fieldsOfJson?_eq_some {back : Content → Content} {fields : List (String × Content)}
    (h : ∀ field ∈ fields, Content.ofJson? number? field.2.toJson = some (back field.2)) :
    fieldsOfJson? number? ((jsonOfFields fields).map fun member => (some member.1, member.2))
      = some (fields.map fun field => (field.1, back field.2)) := by
  induction fields with
  | nil => rfl
  | cons field fields ih =>
    obtain ⟨hfield, hfields⟩ := List.forall_mem_cons.mp h
    rw [jsonOfFields, List.map_cons, fieldsOfJson?, hfield, ih hfields]
    rfl

/-- **The codec of JSON documents is faithful** if numbers are read back as the degrees that they
are written for. -/
theorem faithful_json (h : ∀ x n, Degree.numeral? x = some n → number? n = some x) :
    (json number?).Faithful where
  reread_number x hx := by
    rcases x with _ | ⟨negative, rank⟩
    · cases hx
    · have hn : Degree.numeral? (.number negative rank)
          = some ((Degree.documentDigits rank).numeral negative) := if_pos (of_decide_eq_true hx)
      rw [reread_json_eq_ok_iff, Content.toJson, hn, Content.ofJson?, h _ _ hn]
      rfl
  write_number x hx := by
    have hn : x.numeral? = none := by
      rcases x with _ | ⟨negative, rank⟩
      · rfl
      · exact if_neg (of_decide_eq_false hx)
    change String.ofList (documentDegree x) = _
    rw [documentDegree, hn]
    rfl
  reread_null := reread_json_eq_ok_iff.mpr rfl
  reread_object fields back _ hback := by
    simp only [reread_json_eq_ok_iff] at hback
    rw [reread_json_eq_ok_iff, Content.toJson, Json.ofMembers, Content.ofJson?,
      fieldsOfJson?_eq_some hback]
    rfl
  number_number _ _ := rfl
  number_null := ⟨_, rfl⟩
  fields_object _ := rfl
  split_once _ _ hname := if_pos hname
  split_repeated _ _ hname := ⟨_, if_neg (Nat.not_le_of_lt hname)⟩

/-- The codec of JSON documents that rounds numbers correctly. -/
def exact : Codec := json Degree.rounded?

/-- **There is a faithful codec.** -/
theorem faithful_exact : exact.Faithful :=
  faithful_json fun _ _ => Degree.rounded?_of_numeral?

end Codec

end TrustLogic.Trust
