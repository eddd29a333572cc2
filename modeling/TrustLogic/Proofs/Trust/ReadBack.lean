import TrustLogic.Documents
import TrustLogic.Proofs.Json.Codec
import TrustLogic.Proofs.Trust.Definedness

/-!
# Frames that are written and read again

A frame that is written as a document and read again either comes back as it was or is refused, and
never comes back as another one. There are two ways for it to be refused. A number may have no
notation in a document, which is so for the infinities and for what is not a number. And a variable
may have the name of the field that holds the trust, so that the field is there twice. This holds
for every faithful codec, in whatever order tables are written
(`TrustLogic.Trust.Frame.readBack_exact`).

The argument goes by tables, and is the same for a table of numbers and for a table of tables. A
table is written as fields that list its entries (`TrustLogic.Trust.Lists`). On the way back these
turn into fields that list the same entries, with nothing in the place of what is not finite
(`TrustLogic.Trust.Codec.Returns`). And what lists entries is read as the table of them, or refused
if one of them is (`TrustLogic.Trust.Recognizes`).
-/

namespace TrustLogic

/-! ### Tables and their entries -/

/-- **Entries that are entered one after the other** make the table that they are the entries of, if
no name is there twice. -/
theorem Table.foldl_insert_eq {α : Type} {es : List (String × α)} {t : Table α}
    (hnames : (es.map Prod.fst).Nodup) (hmem : ∀ name a, (name, a) ∈ es ↔ t[name]? = some a) :
    es.foldl (fun t entry => t.insert entry.1 entry.2) ∅ = t := by
  have hdistinct : es.Pairwise fun e e' => ¬compare e.1 e'.1 = .eq := by
    rw [List.Nodup, List.pairwise_map] at hnames
    exact hnames.imp fun h heq => h (Std.compare_eq_iff_eq.mp heq)
  rw [← Std.ExtTreeMap.ofList_eq_foldl]
  refine Std.ExtTreeMap.ext_getElem? fun name => ?_
  cases ha : t[name]? with
  | some a =>
    exact Std.ExtTreeMap.getElem?_ofList_of_mem Std.ReflCmp.compare_self hdistinct
      ((hmem name a).mpr ha)
  | none =>
    refine Std.ExtTreeMap.getElem?_ofList_of_contains_eq_false ?_
    rw [Bool.eq_false_iff, ne_eq, List.contains_iff_mem, List.mem_map]
    rintro ⟨⟨name', a⟩, hentry, rfl⟩
    rw [(hmem name' a).mp hentry] at ha
    cases ha

namespace Trust

variable {α : Type} {R S : α → Content → Prop} {t : Table α} {fields : List (String × Content)}

/-- **The fields list a table**, in any order: every entry has its field and every field its entry,
and the content of the field is related to the value. -/
structure Lists (R : α → Content → Prop) (t : Table α) (fields : List (String × Content)) :
    Prop where
  nodup : (fields.map Prod.fst).Nodup
  exists_value : ∀ name c, (name, c) ∈ fields → ∃ a, t[name]? = some a ∧ R a c
  exists_field : ∀ name a, t[name]? = some a → ∃ c, (name, c) ∈ fields

/-- An object whose fields list a table. -/
def IsTable (R : α → Content → Prop) (t : Table α) (c : Content) : Prop :=
  ∃ fields, c = .object fields ∧ Lists R t fields

/-- The names of the fields are those of the table. -/
theorem Lists.mem_iff (h : Lists R t fields) {name : String} :
    name ∈ fields.map Prod.fst ↔ name ∈ t := by
  rw [List.mem_map, Std.ExtTreeMap.mem_iff_isSome_getElem?, Option.isSome_iff_exists]
  constructor
  · rintro ⟨⟨name, c⟩, hfield, rfl⟩
    obtain ⟨a, ha, -⟩ := h.exists_value name c hfield
    exact ⟨a, ha⟩
  · rintro ⟨a, ha⟩
    obtain ⟨c, hfield⟩ := h.exists_field name a ha
    exact ⟨(name, c), hfield, rfl⟩

/-- Fields with the same names list the same table. -/
theorem Lists.map (h : Lists R t fields) {back : Content → Content}
    (hback : ∀ a c, R a c → S a (back c)) :
    Lists S t (fields.map fun field => (field.1, back field.2)) where
  nodup := by
    rw [List.map_map]
    exact h.nodup
  exists_value name c hfield := by
    obtain ⟨⟨name', c'⟩, hfield', heq⟩ := List.mem_map.mp hfield
    obtain ⟨rfl, rfl⟩ := Prod.mk.inj heq
    obtain ⟨a, ha, hr⟩ := h.exists_value name' c' hfield'
    exact ⟨a, ha, hback a c' hr⟩
  exists_field name a ha := by
    obtain ⟨c, hfield⟩ := h.exists_field name a ha
    exact ⟨back c, List.mem_map.mpr ⟨(name, c), hfield, rfl⟩⟩

/-- The entries of a table in the order of their names list it. -/
theorem lists_fieldsOfTable {write : α → Content} (h : ∀ a, R a (write a)) (t : Table α) :
    Lists R t (fieldsOfTable write t) where
  nodup := by
    have hpairwise := t.distinct_keys
    rw [← Std.ExtTreeMap.map_fst_toList_eq_keys] at hpairwise
    rw [fieldsOfTable, List.map_map]
    refine hpairwise.imp fun hne heq => hne ?_
    rw [heq]
    exact Std.ReflCmp.compare_self
  exists_value name c hfield := by
    obtain ⟨⟨name', a⟩, hentry, heq⟩ := List.mem_map.mp hfield
    obtain ⟨rfl, rfl⟩ := Prod.mk.inj heq
    exact ⟨a, Std.ExtTreeMap.mem_toList_iff_getElem?_eq_some.mp hentry, h a⟩
  exists_field name a ha :=
    ⟨write a, List.mem_map.mpr
      ⟨(name, a), Std.ExtTreeMap.mem_toList_iff_getElem?_eq_some.mpr ha, rfl⟩⟩

/-! ### The way back -/

theorem Content.Within.mono {c : Content} {m n : Nat} (h : c.Within m) (hmn : m ≤ n) :
    c.Within n := by
  induction m generalizing n c with
  | zero => cases c <;> cases n <;> trivial
  | succ m ih =>
    obtain ⟨n, rfl⟩ := Nat.exists_eq_add_of_le' (Nat.zero_lt_of_lt hmn)
    cases c with
    | object fields => exact fun field hfield => ih (h field hfield) (Nat.le_of_succ_le_succ hmn)
    | _ => trivial

namespace Codec

variable {k : Codec}

/-- **What stands for a value comes back** as something else that stands for it, as long as objects
nest in so many levels at most. -/
def Returns (k : Codec) (levels : Nat) (R S : α → Content → Prop) : Prop :=
  ∀ a c, R a c → c.Within levels ∧ ∃ c', k.reread c = .ok c' ∧ S a c'

/-- What a content comes back as. -/
def returned (k : Codec) (c : Content) : Content :=
  match k.reread c with
  | .ok c' => c'
  | .error _ => .null

theorem returned_eq {c c' : Content} (h : k.reread c = .ok c') : k.returned c = c' := by
  rw [returned, h]

/-- An object comes back if the values of its fields do. -/
theorem Faithful.reread_fields (hk : k.Faithful) {levels : Nat} (hlevels : levels < 3)
    (h : ∀ field ∈ fields, field.2.Within levels ∧ ∃ c', k.reread field.2 = .ok c') :
    k.reread (.object fields)
      = .ok (.object (fields.map fun field => (field.1, k.returned field.2))) := by
  have hwithin : (Content.object fields).Within (levels + 1) := fun field hfield =>
    (h field hfield).1
  refine hk.reread_object fields k.returned (hwithin.mono hlevels) fun field hfield => ?_
  obtain ⟨-, c', hc'⟩ := h field hfield
  rw [hc', returned_eq hc']

section

variable {levels : Nat} (h : k.Returns levels R S)
include h

theorem Returns.exists_reread (hlists : Lists R t fields) :
    ∀ field ∈ fields, field.2.Within levels ∧ ∃ c', k.reread field.2 = .ok c' := by
  intro field hfield
  obtain ⟨a, -, hr⟩ := hlists.exists_value field.1 field.2 hfield
  obtain ⟨hwithin, c', hc', -⟩ := h a field.2 hr
  exact ⟨hwithin, c', hc'⟩

theorem Returns.lists (hlists : Lists R t fields) :
    Lists S t (fields.map fun field => (field.1, k.returned field.2)) := by
  refine hlists.map fun a c hr => ?_
  obtain ⟨-, c', hc', hs⟩ := h a c hr
  rw [returned_eq hc']
  exact hs

/-- **A table comes back** if its values do. -/
theorem Returns.table (hk : k.Faithful) (hlevels : levels < 3) :
    k.Returns (levels + 1) (IsTable R) (IsTable S) := by
  rintro t _ ⟨fields, rfl, hlists⟩
  have hfields := h.exists_reread hlists
  exact ⟨fun field hfield => (hfields field hfield).1, _, hk.reread_fields hlevels hfields,
    _, rfl, h.lists hlists⟩

end

end Codec

/-! ### Reading tables -/

section

variable {read : Content → Except String α}

theorem map_field_eq_ok_iff {field : String × Content} {e : String × α} :
    ((read field.2).map fun a => (field.1, a)) = .ok e ↔
      field.1 = e.1 ∧ read field.2 = .ok e.2 := by
  cases read field.2 <;> simp [Except.map, Prod.ext_iff]

/-- **Fields are read as the table that they list** if what stands for a value is read as it. -/
theorem tableOfFields_eq_ok (h : Lists (fun a c => read c = .ok a) t fields) :
    tableOfFields read fields = .ok t := by
  have hsome : ∀ field ∈ fields, ∃ e, ((read field.2).map fun a => (field.1, a)) = .ok e := by
    intro field hfield
    obtain ⟨a, -, ha⟩ := h.exists_value field.1 field.2 hfield
    exact ⟨(field.1, a), map_field_eq_ok_iff.mpr ⟨rfl, ha⟩⟩
  obtain ⟨es, hes⟩ := exists_mapM_eq_ok_iff.mpr hsome
  have hnames : es.map Prod.fst = fields.map Prod.fst := by
    have hforall := mapM_eq_ok_iff.mp hes
    clear h hsome hes
    induction hforall with
    | nil => rfl
    | cons he _ ih => rw [List.map_cons, List.map_cons, ih, (map_field_eq_ok_iff.mp he).1]
  have hmem (name : String) (a : α) : (name, a) ∈ es ↔ t[name]? = some a := by
    simp only [mem_mapM_iff hes, map_field_eq_ok_iff]
    constructor
    · rintro ⟨⟨name, c⟩, hfield, rfl, hc⟩
      obtain ⟨a', ha', hc'⟩ := h.exists_value name c hfield
      rw [ha', Except.ok.inj (hc.symm.trans hc')]
    · intro ha
      obtain ⟨c, hfield⟩ := h.exists_field name a ha
      obtain ⟨a', ha', hc⟩ := h.exists_value name c hfield
      rw [Option.some.inj (ha.symm.trans ha')]
      exact ⟨(name, c), hfield, rfl, hc⟩
  rw [tableOfFields, hes]
  exact congrArg Except.ok (Table.foldl_insert_eq (hnames ▸ h.nodup) hmem)

/-- Fields are refused if the value of one of them is. -/
theorem exists_tableOfFields_eq_error {name : String} {c : Content} (hfield : (name, c) ∈ fields)
    (hc : ∃ reason, read c = .error reason) :
    ∃ reason, tableOfFields read fields = .error reason := by
  rw [tableOfFields]
  cases hes : fields.mapM fun field => (read field.2).map fun a => (field.1, a) with
  | error reason => exact ⟨reason, rfl⟩
  | ok es =>
    obtain ⟨reason, hc⟩ := hc
    obtain ⟨e, he⟩ := exists_mapM_eq_ok_iff.mp ⟨es, hes⟩ (name, c) hfield
    rw [map_field_eq_ok_iff, hc] at he
    cases he.2

end

/-- **A reader recognizes the values with a property** by what stands for them: it reads such a
value as itself and refuses any other one. -/
def Recognizes (read : Content → Except String α) (P : α → Prop) (R : α → Content → Prop) : Prop :=
  ∀ a c, R a c → (P a → read c = .ok a) ∧ (¬ P a → ∃ reason, read c = .error reason)

/-- All values of a table have a property. -/
def Everywhere (P : α → Prop) (t : Table α) : Prop :=
  ∀ (name : String) a, t[name]? = some a → P a

variable {read : Content → Except String α} {P : α → Prop}

/-- What lists a table is read as the table if all of its values are recognized. -/
theorem Recognizes.ofFields (h : Recognizes read P R) (hlists : Lists R t fields) :
    (Everywhere P t → tableOfFields read fields = .ok t) ∧
    (¬ Everywhere P t → ∃ reason, tableOfFields read fields = .error reason) := by
  constructor
  · intro hall
    refine tableOfFields_eq_ok ⟨hlists.nodup, fun name c hfield => ?_, hlists.exists_field⟩
    obtain ⟨a, ha, hr⟩ := hlists.exists_value name c hfield
    exact ⟨a, ha, (h a c hr).1 (hall name a ha)⟩
  · intro hsome
    simp only [Everywhere, not_forall] at hsome
    obtain ⟨name, a, ha, hP⟩ := hsome
    obtain ⟨c, hfield⟩ := hlists.exists_field name a ha
    obtain ⟨a', ha', hr⟩ := hlists.exists_value name c hfield
    obtain rfl := Option.some.inj (ha.symm.trans ha')
    exact exists_tableOfFields_eq_error hfield ((h a c hr).2 hP)

/-- **A table is recognized** by its values. -/
theorem Recognizes.table {k : Codec} (hk : k.Faithful) (h : Recognizes read P R) :
    Recognizes (k.table read) (Everywhere P) (IsTable R) := by
  rintro t _ ⟨fields, rfl, hlists⟩
  rw [Codec.table, hk.fields_object]
  exact h.ofFields hlists

/-! ### Numbers and tables of them -/

/-- The number itself stands for a number. -/
def IsNumber (x : Degree) (c : Content) : Prop := c = .number x

/-- The number itself stands for a finite number, and nothing for any other one. -/
def IsKept (x : Degree) (c : Content) : Prop :=
  c = if x.isFinite then .number x else .null

/-- A number comes back if it is finite, and as nothing otherwise. -/
theorem Codec.Faithful.returns_number {k : Codec} (hk : k.Faithful) :
    k.Returns 0 IsNumber IsKept := by
  rintro x _ rfl
  refine ⟨trivial, _, ?_, rfl⟩
  by_cases hx : x.isFinite = true
  · rw [if_pos hx, hk.reread_number x hx]
  · rw [Codec.reread, hk.write_number x (Bool.eq_false_iff.mpr hx), if_neg hx]
    exact hk.reread_null

theorem Codec.Faithful.recognizes_number {k : Codec} (hk : k.Faithful) :
    Recognizes k.number (fun x => x.isFinite = true) IsKept := by
  rintro x _ rfl
  refine ⟨fun hx => ?_, fun hx => ?_⟩
  · rw [if_pos hx, hk.number_number x hx]
  · rw [if_neg hx]
    exact hk.number_null

namespace Grid

variable {g : Grid}

/-- The numbers of a table of tables are those of its rows. -/
theorem everywhere_iff {P : Degree → Prop} :
    Everywhere (Everywhere P) g ↔ ∀ row column x, g.get? row column = some x → P x := by
  simp only [Everywhere, get?, Option.bind_eq_some_iff, forall_exists_index, and_imp]
  exact forall_congr' fun row => ⟨fun h column x t ht hx => h t ht column x hx,
    fun h t ht column x hx => h column x t ht hx⟩

/-- Numbers that are the same as themselves make a table of tables that is. -/
theorem same_self (h : ∀ row column x, g.get? row column = some x → x.same x = true) :
    g.same g = true := by
  have hrow (row : String) (t : Table Degree) (ht : g[row]? = some t) :
      ∀ entry ∈ t.toList, entry.2.same entry.2 = true := fun entry hentry =>
    h row entry.1 entry.2 (by
      rw [get?, ht]
      exact Std.ExtTreeMap.mem_toList_iff_getElem?_eq_some.mp hentry)
  simp only [same, List.zip, List.zipWith_self, List.all_map, beq_self_eq_true, Bool.true_and,
    List.all_eq_true, Function.comp_apply]
  exact fun row hmem => hrow row.1 row.2 (Std.ExtTreeMap.mem_toList_iff_getElem?_eq_some.mp hmem)

end Grid

/-! ### Frames -/

namespace Frame

variable {f : Frame} {k : Codec}

/-- A content is written of a frame, or comes back for one, where numbers turn into what is related
to them. The field for the trust comes first. -/
def IsContent (R : Degree → Content → Prop) (f : Frame) (c : Content) : Prop :=
  ∃ trust fields, c = .object ((trustField, trust) :: fields) ∧
    IsTable (IsTable R) f.trust trust ∧ Lists (IsTable R) f.degrees fields

/-- **The content may be written of the frame**, whatever the order in which tables are written. -/
def WrittenAs (f : Frame) (c : Content) : Prop := f.IsContent IsNumber c

theorem isTable_contentOfRow (t : Table Degree) : IsTable IsNumber t (contentOfRow t) :=
  ⟨_, rfl, lists_fieldsOfTable (R := IsNumber) (fun _ => rfl) t⟩

/-- A frame may be written in the order of all names. -/
theorem writtenAs_content (f : Frame) : f.WrittenAs f.content :=
  ⟨_, _, rfl, ⟨_, rfl, lists_fieldsOfTable isTable_contentOfRow f.trust⟩,
    lists_fieldsOfTable isTable_contentOfRow f.degrees⟩

/-- **What is written of a frame comes back for it**, with nothing in the place of what is not a
finite number. -/
theorem exists_reread (hk : k.Faithful) {c : Content} (h : f.WrittenAs c) :
    ∃ c', k.reread c = .ok c' ∧ f.IsContent IsKept c' := by
  obtain ⟨trust, fields, rfl, htrust, hfields⟩ := h
  have hrow : k.Returns 1 (IsTable IsNumber) (IsTable IsKept) :=
    hk.returns_number.table hk (by decide)
  have hgrid : k.Returns 2 (IsTable (IsTable IsNumber)) (IsTable (IsTable IsKept)) :=
    hrow.table hk (by decide)
  obtain ⟨hwithin, trust', hreread, htrust'⟩ := hgrid f.trust trust htrust
  have hback : ∀ field ∈ (trustField, trust) :: fields,
      field.2.Within 2 ∧ ∃ c', k.reread field.2 = .ok c' := by
    refine List.forall_mem_cons.mpr ⟨⟨hwithin, trust', hreread⟩, fun field hfield => ?_⟩
    obtain ⟨hwithin, hc'⟩ := hrow.exists_reread hfields field hfield
    exact ⟨hwithin.mono (by decide), hc'⟩
  refine ⟨_, hk.reread_fields (by decide) hback, trust', _, ?_, htrust', hrow.lists hfields⟩
  rw [List.map_cons, Codec.returned_eq hreread]

theorem mem_names_iff {name : String} : name ∈ f.names ↔ name ∈ f.degrees := by
  rw [names, Std.ExtTreeMap.mem_keys]

/-- The number is one of those in the frame. -/
def Stores (f : Frame) (x : Degree) : Prop :=
  (∃ name agent, f.degrees.get? name agent = some x) ∨
    ∃ truster trustee, f.trust.get? truster trustee = some x

/-- What is said of all numbers of a frame is said of those in both tables of tables. -/
theorem forall_stores_iff {P : Degree → Prop} :
    (∀ x, f.Stores x → P x) ↔
      Everywhere (Everywhere P) f.degrees ∧ Everywhere (Everywhere P) f.trust := by
  simp only [Grid.everywhere_iff, Stores, or_imp, forall_and, forall_exists_index]
  exact and_congr
    ⟨fun h name agent x hx => h x name agent hx, fun h x name agent hx => h name agent x hx⟩
    ⟨fun h truster trustee x hx => h x truster trustee hx,
      fun h x truster trustee hx => h truster trustee x hx⟩

/-- A field is told from all others if it stands in front of them and is not there again. -/
theorem split_cons (hk : k.Faithful) {name : String} {c : Content}
    {fields : List (String × Content)} :
    (name ∉ fields.map Prod.fst → k.split name ((name, c) :: fields) = .ok (some c, fields)) ∧
    (name ∈ fields.map Prod.fst →
      ∃ reason, k.split name ((name, c) :: fields) = .error reason) := by
  have hknown : ((name, c) :: fields).filter (fun field => field.1 = name)
      = (name, c) :: fields.filter fun field => field.1 = name :=
    List.filter_cons_of_pos (by simp)
  constructor
  · intro hname
    have hne : ∀ field ∈ fields, field.1 ≠ name := fun field hfield heq =>
      hname (List.mem_map.mpr ⟨field, hfield, heq⟩)
    have hnone : (fields.filter fun field => field.1 = name) = [] :=
      List.filter_eq_nil_iff.mpr fun field hfield => by simpa using hne field hfield
    have hothers : ((name, c) :: fields).filter (fun field => field.1 ≠ name) = fields := by
      rw [List.filter_cons_of_neg (by simp), List.filter_eq_self]
      exact fun field hfield => decide_eq_true (hne field hfield)
    rw [hk.split_once _ _ (by rw [hknown, hnone, List.length_singleton]), hothers,
      List.find?_cons_of_pos (by simp), Option.map_some]
  · intro hname
    obtain ⟨field, hfield, heq⟩ := List.mem_map.mp hname
    refine hk.split_repeated _ _ ?_
    rw [hknown, List.length_cons]
    exact Nat.succ_lt_succ (List.length_pos_of_mem
      (List.mem_filter.mpr ⟨hfield, decide_eq_true heq⟩))

theorem ofContent_object (hk : k.Faithful) (fields : List (String × Content)) :
    ofContent k (.object fields) = (k.split trustField fields).bind fun parts =>
      (parts.1.elim (.ok ∅) k.grid).bind fun trust =>
        (tableOfFields k.row parts.2).map fun degrees => ⟨degrees, trust⟩ := by
  rw [ofContent, hk.fields_object]
  rfl

/-- **What comes back for a frame is read as the frame** if all numbers are finite and no variable
has the name of the field for the trust. Otherwise it is refused. -/
theorem ofContent_exact (hk : k.Faithful) {c : Content} (h : f.IsContent IsKept c) :
    ((∀ x, f.Stores x → x.isFinite = true) ∧ trustField ∉ f.names → ofContent k c = .ok f) ∧
    (¬ ((∀ x, f.Stores x → x.isFinite = true) ∧ trustField ∉ f.names) →
      ∃ reason, ofContent k c = .error reason) := by
  obtain ⟨trust, fields, rfl, htrust, hfields⟩ := h
  have hrow : Recognizes k.row _ (IsTable IsKept) := hk.recognizes_number.table hk
  have hgrid : Recognizes k.grid _ (IsTable (IsTable IsKept)) := hrow.table hk
  obtain ⟨hdegrees, hnoDegrees⟩ := hrow.ofFields hfields
  obtain ⟨htrusts, hnoTrusts⟩ := hgrid f.trust trust htrust
  rw [forall_stores_iff, mem_names_iff, ← hfields.mem_iff, ofContent_object hk]
  by_cases hname : trustField ∈ fields.map Prod.fst
  · -- the field for the trust is there twice
    obtain ⟨reason, hsplit⟩ := (split_cons (c := trust) hk).2 hname
    rw [hsplit]
    exact ⟨fun h => absurd hname h.2, fun _ => ⟨reason, rfl⟩⟩
  · rw [(split_cons hk).1 hname]
    simp only [Except.bind, Option.elim_some]
    refine ⟨fun h => ?_, fun h => ?_⟩
    · rw [htrusts h.1.2, hdegrees h.1.1]
      rfl
    · by_cases htrusted : Everywhere (Everywhere fun x : Degree => x.isFinite = true) f.trust
      · obtain ⟨reason, hrefused⟩ := hnoDegrees fun hd => h ⟨⟨hd, htrusted⟩, hname⟩
        rw [htrusts htrusted, hrefused]
        exact ⟨reason, rfl⟩
      · obtain ⟨reason, hrefused⟩ := hnoTrusts htrusted
        rw [hrefused]
        exact ⟨reason, rfl⟩

theorem same_self (h : ∀ x, f.Stores x → x.isFinite = true) : f.same f = true := by
  have hsame (x : Degree) (hx : f.Stores x) : x.same x = true := by
    have hfinite := h x hx
    cases x with
    | nan => cases hfinite
    | number negative rank => exact decide_eq_true rfl
  rw [same, Grid.same_self fun name agent x hx => hsame x (.inl ⟨name, agent, hx⟩),
    Grid.same_self fun truster trustee x hx => hsame x (.inr ⟨truster, trustee, hx⟩)]
  rfl

/-- What is written of a frame is read as the frame, or refused. -/
theorem ofText_write (hk : k.Faithful) {c : Content} (h : f.WrittenAs c) :
    ((∀ x, f.Stores x → x.isFinite = true) ∧ trustField ∉ f.names →
      ofText k (k.write c) = .ok f) ∧
    (¬ ((∀ x, f.Stores x → x.isFinite = true) ∧ trustField ∉ f.names) →
      ∃ reason, ofText k (k.write c) = .error (.document (.badText reason))) := by
  obtain ⟨c', hreread, hc'⟩ := exists_reread hk h
  obtain ⟨hgood, hbad⟩ := ofContent_exact hk hc'
  have htext : ofText k (k.write c)
      = (ofContent k c').mapError fun reason => .document (.badText reason) := by
    change (((k.reread c).bind (ofContent k)).mapError fun reason =>
      Error.document (.badText reason)) = _
    rw [hreread]
    rfl
  rw [htext]
  constructor
  · intro hfits
    rw [hgood hfits]
    rfl
  · intro hfits
    obtain ⟨reason, hrefused⟩ := hbad hfits
    rw [hrefused]
    exact ⟨reason, rfl⟩

/-- **A frame survives being written and read exactly if it can.** With any faithful codec, and in
whatever order its tables are written, it is read back as itself if all of its numbers are finite
and no variable has the name of the field for the trust. Otherwise the document is refused. It is
never read back as another frame. -/
theorem readBack_exact (hk : k.Faithful) (f : Frame) :
    f.WrittenAs f.content ∧ ∀ c, f.WrittenAs c →
      ((∃ g, ofText k (k.write c) = .ok g ∧ f.same g = true) ↔
        (∀ x, f.Stores x → x.isFinite = true) ∧ trustField ∉ f.names) ∧
      (¬ ((∀ x, f.Stores x → x.isFinite = true) ∧ trustField ∉ f.names) →
        ∃ reason, ofText k (k.write c) = .error (.document (.badText reason))) ∧
      ∀ g, ofText k (k.write c) = .ok g → g = f ∧ f.same g = true := by
  refine ⟨f.writtenAs_content, fun c hc => ?_⟩
  obtain ⟨hgood, hbad⟩ := ofText_write hk hc
  by_cases hfits : (∀ x, f.Stores x → x.isFinite = true) ∧ trustField ∉ f.names
  · have hself := hgood hfits
    have hsame := same_self hfits.1
    refine ⟨iff_of_true ⟨f, hself, hsame⟩ hfits, hbad, fun g hg => ?_⟩
    obtain rfl := Except.ok.inj (hself.symm.trans hg)
    exact ⟨rfl, hsame⟩
  · obtain ⟨reason, herror⟩ := hbad hfits
    have hnone (g : Frame) (hg : ofText k (k.write c) = .ok g) : False := by
      rw [herror] at hg
      cases hg
    exact ⟨iff_of_false (fun ⟨g, hg, _⟩ => hnone g hg) hfits, hbad, fun g hg => (hnone g hg).elim⟩

/-- A frame with a degree and some trust. -/
def plain : Frame := (empty.setDegree "p" "a" Degree.one).setTrust "a" "b" Degree.zero

theorem isFinite_of_stores_plain {x : Degree} (h : plain.Stores x) : x.isFinite = true := by
  obtain ⟨name, agent, hx⟩ | ⟨truster, trustee, hx⟩ := h
  · rw [plain, setTrust, setDegree, Grid.get?_set] at hx
    split at hx
    · obtain rfl := Option.some.inj hx
      rfl
    · simp [empty, Grid.get?] at hx
  · rw [plain, setTrust, Grid.get?_set] at hx
    split at hx
    · obtain rfl := Option.some.inj hx
      rfl
    · simp [empty, setDegree, Grid.get?] at hx

/-- The frame is read back from the document that it is written as, and no longer if a variable
takes the name of the field for the trust or a number is none. -/
theorem readBack_exact_plain :
    Codec.exact.write plain.content
      = "\x7b\"relation\":\x7b\"a\":\x7b\"b\":0.0\x7d\x7d,\"p\":\x7b\"a\":1.0\x7d\x7d" ∧
    (∃ g, plain.readBack .exact = .ok g ∧ plain.same g = true) ∧
    (∃ reason, (plain.setDegree "relation" "a" Degree.one).readBack .exact
      = .error (.document (.badText reason))) ∧
    ∃ reason, (plain.setTrust "a" "c" Degree.nan).readBack .exact
      = .error (.document (.badText reason)) := by
  refine ⟨by decide +kernel, ?_, ?_, ?_⟩
  · obtain ⟨hwritten, hread⟩ := readBack_exact Codec.faithful_exact plain
    have hname : trustField ∉ plain.names := by decide +kernel
    exact (hread _ hwritten).1.mpr ⟨fun x => isFinite_of_stores_plain, hname⟩
  · obtain ⟨hwritten, hread⟩ :=
      readBack_exact Codec.faithful_exact (plain.setDegree "relation" "a" Degree.one)
    have hname : trustField ∈ (plain.setDegree "relation" "a" Degree.one).names := by
      decide +kernel
    exact (hread _ hwritten).2.1 fun h => h.2 hname
  · obtain ⟨hwritten, hread⟩ :=
      readBack_exact Codec.faithful_exact (plain.setTrust "a" "c" Degree.nan)
    refine (hread _ hwritten).2.1 fun h => Bool.false_ne_true (h.1 Degree.nan (.inr ⟨"a", "c", ?_⟩))
    rw [setTrust, Grid.get?_set, if_pos ⟨rfl, rfl⟩]

end Frame

end Trust

end TrustLogic
