import TrustLogic.CommandLine.Run
import TrustLogic.Proofs.Formula.Grammar

/-!
# Nesting

One limit bounds the nesting of formulas in three places, and each of them counts in its own way.
Reading counts the levels that operators and parentheses open, and both ways of evaluating count the
nodes on the way down, in a Kripke model once for all worlds and in a frame of trust again for every
agent that is reached. This file says that the three agree: what has been read nests no deeper than
the evaluation admits.

* `TrustLogic.Avoids` – a result that is no fault of a given kind. Sequences of steps avoid a fault
  if each of them does, under what the steps before it have found.
* `TrustLogic.Derives.depth_le_levels` – a formula is no deeper than the sentence that it is read
  from has levels.
* `TrustLogic.Trust.Frame.avoids_degreeOf`, `TrustLogic.Kripke.Model.avoids_evidence` – evaluating
  does not complain about the nesting where as many levels are left as the formula is deep.

`TrustLogic.limits_agree` carries this to the command line: a run may be refused for the nesting of
its formula when this is read, but not when it is evaluated.
-/

namespace TrustLogic

/-! ### Results without some faults -/

/-- The result is no fault for which `bad` holds. -/
def Avoids {ε α : Type} (bad : ε → Prop) (r : Except ε α) : Prop :=
  ∀ e, r = .error e → ¬ bad e

section Avoids

variable {ε δ α β : Type} {bad : ε → Prop} {r : Except ε α}

theorem avoids_ok (a : α) : Avoids bad (.ok a) := by
  rintro e ⟨⟩

theorem avoids_error {e : ε} (h : ¬ bad e) : Avoids bad (.error e : Except ε α) := by
  rintro _ ⟨⟩
  exact h

theorem Avoids.map (h : Avoids bad r) (f : α → β) : Avoids bad (r.map f) := by
  rcases r with e | a
  · exact avoids_error (h e rfl)
  · exact avoids_ok (f a)

theorem Avoids.bind {f : α → Except ε β} (h : Avoids bad r)
    (hf : ∀ a, r = .ok a → Avoids bad (f a)) : Avoids bad (r.bind f) := by
  rcases r with e | a
  · exact avoids_error (h e rfl)
  · exact hf a rfl

theorem Avoids.mapError {bad : δ → Prop} {f : ε → δ} (h : Avoids (fun e => bad (f e)) r) :
    Avoids bad (r.mapError f) := by
  rcases r with e | a
  · exact avoids_error (h e rfl)
  · exact avoids_ok a

theorem Avoids.mapM {f : α → Except ε β} {as : List α} (h : ∀ a ∈ as, Avoids bad (f a)) :
    Avoids bad (as.mapM f) := by
  induction as with
  | nil => exact avoids_ok []
  | cons a as ih =>
    obtain ⟨hhead, htail⟩ := List.forall_mem_cons.mp h
    rw [List.mapM_cons]
    exact hhead.bind fun b _ => (ih htail).bind fun bs _ => avoids_ok (b :: bs)

end Avoids

/-! ### Reading -/

/-- **A formula is no deeper than its sentence has levels.** Every operator opens a level; what the
parentheses open comes on top. -/
theorem Derives.depth_le_levels {ts : List Token} {φ : Formula} (h : Derives ts φ) :
    φ.depth ≤ levels ts := by
  induction h with
  | unary op _ ih =>
    rw [Formula.depth, levels_operator]
    omega
  | var name => exact levels_pos _
  | @binary name op ts φ _ ih =>
    have hpos := levels_pos ts
    simp only [Formula.depth, levels_var, levels_operator]
    omega
  | between _ ih =>
    rw [levels_opening, levels_closing]
    omega

/-- A formula that is read is no deeper than the limit. -/
theorem depth_le_of_ofText {limit : Nat} {s : String} {φ : Formula}
    (h : Formula.ofText limit s = .ok φ) : φ.depth ≤ limit := by
  obtain ⟨ts, -, hφ, hlevels⟩ := ofText_eq_ok_iff.mp h
  exact Nat.le_trans hφ.depth_le_levels hlevels

/-! ### Evaluating -/

/-- A fault that is about the nesting of the formula. -/
def Trust.EvalError.IsDeep : Trust.EvalError → Prop
  | tooDeep _ => True
  | _ => False

/-- A fault that is about the nesting of the formula. -/
def Kripke.EvalError.IsDeep : Kripke.EvalError → Prop
  | tooDeep _ => True
  | _ => False

namespace Trust

theorem avoids_gatherAll (op : Modality) (agent : String) (xs : List Degree) :
    Avoids EvalError.IsDeep (gatherAll op agent xs) := by
  cases xs with
  | nil => exact avoids_error not_false
  | cons x xs => exact avoids_ok _

namespace Frame

variable {f : Frame}

/-- A modality is not too deep if its operand is not, at any agent. -/
theorem avoids_modal {op : Modality} {degreeAt : String → Except EvalError Degree}
    (h : ∀ agent, Avoids EvalError.IsDeep (degreeAt agent)) (agent : String) :
    Avoids EvalError.IsDeep (f.modal op degreeAt agent) := by
  have hall : Avoids EvalError.IsDeep
      ((f.trusted agent).mapM fun entry => (degreeAt entry.1).map (weigh op entry.2)) :=
    .mapM fun entry _ => (h entry.1).map _
  exact hall.bind fun xs _ => avoids_gatherAll op agent xs

/-- **A formula is not too deep for the levels that are left** if it is no deeper than these, at
whatever agents its modalities lead to. -/
theorem avoids_degreeOf (f : Frame) (limit : Nat) {room : Nat} {φ : Formula}
    (h : φ.depth ≤ room) (agent : String) :
    Avoids EvalError.IsDeep (f.degreeOf limit room φ agent) := by
  induction room generalizing φ agent with
  | zero => exact absurd h (Nat.not_le_of_lt φ.depth_pos)
  | succ room ih =>
    cases φ with
    | var name => exact avoids_ok _
    | unary op φ =>
      have hφ : φ.depth ≤ room := Nat.le_of_succ_le_succ h
      cases op with
      | negation => exact (ih hφ agent).map _
      | modal op => exact avoids_modal (ih hφ) agent
    | binary op φ ψ =>
      obtain ⟨hφ, hψ⟩ := Nat.max_le.mp (Nat.le_of_succ_le_succ h)
      exact (ih hφ agent).bind fun left _ => (ih hψ agent).map _

end Frame

end Trust

namespace Kripke.Model

variable (m : Model)

theorem avoids_evidenceAt (name : String) (w : Nat) :
    Avoids EvalError.IsDeep (m.evidenceAt name w) := by
  rw [evidenceAt]
  split
  · exact avoids_error not_false
  · split
    · exact avoids_error not_false
    · exact avoids_ok _

/-- **A formula is not too deep for the levels that are left** if it is no deeper than these. -/
theorem avoids_evidence (limit : Nat) {room : Nat} {φ : Formula} (h : φ.depth ≤ room) :
    Avoids EvalError.IsDeep (m.evidence limit room φ) := by
  induction room generalizing φ with
  | zero => exact absurd h (Nat.not_le_of_lt φ.depth_pos)
  | succ room ih =>
    cases φ with
    | var name => exact .mapM fun w _ => m.avoids_evidenceAt name w
    | unary op φ => exact (ih (Nat.le_of_succ_le_succ h)).map _
    | binary op φ ψ =>
      obtain ⟨hφ, hψ⟩ := Nat.max_le.mp (Nat.le_of_succ_le_succ h)
      exact (ih hφ).bind fun left _ => (ih hψ).map _

theorem avoids_evaluate {limit : Nat} {φ : Formula} (h : φ.depth ≤ limit) (w : Nat) :
    Avoids EvalError.IsDeep (m.evaluate limit φ w) := by
  have hworld : ¬ EvalError.IsDeep (.noWorld w m.worlds) := not_false
  rw [evaluate]
  split
  · refine (m.avoids_evidence limit h).bind fun all _ => ?_
    split
    · exact avoids_ok _
    · exact avoids_error hworld
  · exact avoids_error hworld

end Kripke.Model

/-! ### Runs of the command line -/

/-- A fault that is about the nesting of a formula, found when the formula is evaluated. -/
def Error.IsNesting : Error → Prop
  | degree e => e.IsDeep
  | evidence e => e.IsDeep
  | _ => False

theorem avoids_ofText (limit : Nat) (s : String) :
    Avoids Error.IsNesting (Formula.ofText limit s) := by
  rw [Formula.ofText]
  split
  · exact avoids_error not_false
  · split
    · exact avoids_ok _
    · exact avoids_error not_false

theorem avoids_readFile {α : Type} (read : Glyphs → Except String α) (path : String)
    (content : FileContent) : Avoids Error.IsNesting (readFile read path content) := by
  cases content with
  | missing reason => exact avoids_error not_false
  | unreadable reason => exact avoids_error not_false
  | bytes b => exact .mapError fun _ _ => not_false

namespace CommandLine

variable (read : String → FileContent)

theorem avoids_performTask (settings : Settings) (formula : String) (task : Task) :
    Avoids Error.IsNesting (performTask read settings formula task) := by
  cases task with
  | tokens => exact Avoids.map (.mapError fun _ _ => not_false) _
  | parse => exact (avoids_ofText _ _).map _
  | fuzzy frame agent =>
    refine (avoids_readFile _ _ _).bind fun f _ => (avoids_ofText _ _).bind fun φ hφ => ?_
    have hdepth := f.avoids_degreeOf settings.maxDepth (depth_le_of_ofText hφ) agent
    exact Avoids.bind (.mapError hdepth) fun x _ => avoids_ok _
  | kripke model world =>
    refine (avoids_readFile _ _ _).bind fun d _ => ?_
    refine Avoids.bind (.mapError fun _ _ => not_false) fun m _ => ?_
    refine (avoids_ofText _ _).bind fun φ hφ => ?_
    have hdepth := m.avoids_evaluate (depth_le_of_ofText hφ) world
    exact Avoids.bind (.mapError hdepth) fun a _ => avoids_ok _

theorem avoids_perform (i : Invocation) : Avoids Error.IsNesting (perform read i) := by
  rw [perform]
  split
  · exact (avoids_readFile _ _ _).bind fun settings _ => avoids_performTask read settings _ _
  · exact avoids_performTask read {} _ _

end CommandLine

/-! ### What a run reports -/

/-- The first character of a text. -/
def initial? (s : String) : Option Char := s.toList.head?

theorem initial?_append {a : String} {c : Char} (h : initial? a = some c) (b : String) :
    initial? (a ++ b) = some c := by
  rw [initial?, String.toList_append, List.head?_append, ← initial?, h]
  rfl

theorem Trust.EvalError.initial?_message (e : Trust.EvalError) :
    initial? e.message = some (match e with
      | noTrust _ => 'E'
      | tooDeep _ => 'F') := by
  cases e with
  | noTrust agent => exact initial?_append (initial?_append rfl _) _
  | tooDeep limit => exact initial?_append rfl _

theorem Kripke.EvalError.initial?_message (e : Kripke.EvalError) :
    initial? e.message = some (match e with
      | noVariable _ _ => 'U'
      | noWorld _ _ => 'W'
      | tooDeep _ => 'F') := by
  cases e with
  | noVariable name side => exact initial?_append (initial?_append (initial?_append rfl _) _) _
  | noWorld w worlds =>
    exact initial?_append (initial?_append (initial?_append (initial?_append rfl _) _) _) _
  | tooDeep limit => exact initial?_append rfl _

theorem Error.initial?_message (e : Error) :
    initial? e.message = some (match e with
      | lex _ => 'T'
      | parse _ _ => 'P'
      | model _ => 'M'
      | document _ => 'C'
      | evidence _ => 'E'
      | degree _ => 'E') := by
  cases e with
  | lex e => exact initial?_append rfl _
  | parse e s => exact initial?_append (initial?_append (initial?_append rfl _) _) _
  | model e => exact initial?_append rfl _
  | document e => exact initial?_append rfl _
  | evidence e => exact initial?_append rfl _
  | degree e => exact initial?_append rfl _

/-- **Only a fault about the nesting is reported as one.** The initials of the messages tell the
faults apart, those of the parts first and then those of evaluating. -/
theorem Error.isNesting_of_message_eq {e : Error} {limit : Nat}
    (h : e.message = (Error.degree (.tooDeep limit)).message) : e.IsNesting := by
  have hinitial := congrArg initial? h
  rw [initial?_message, initial?_message] at hinitial
  cases e with
  | lex e => simp at hinitial
  | parse e s => simp at hinitial
  | model e => simp at hinitial
  | document e => simp at hinitial
  | evidence e =>
    have hrest := congrArg initial? ((String.append_right_inj _).mp h)
    rw [Kripke.EvalError.initial?_message, Trust.EvalError.initial?_message] at hrest
    cases e with
    | noVariable name side => simp at hrest
    | noWorld w worlds => simp at hrest
    | tooDeep limit => trivial
  | degree e =>
    have hrest := congrArg initial? ((String.append_right_inj _).mp h)
    rw [Trust.EvalError.initial?_message, Trust.EvalError.initial?_message] at hrest
    cases e with
    | noTrust agent => simp at hrest
    | tooDeep limit => trivial

namespace CommandLine

/-- The report that evaluating has met the limit. -/
theorem nesting_report (limit : Nat) :
    "Error: " ++ (Error.degree (.tooDeep limit)).message =
      "Error: Eval error: Formula nesting exceeds the maximum depth of " ++ toString limit := by
  have htext : "Error: Eval error: Formula nesting exceeds the maximum depth of " =
      "Error: " ++ ("Eval error: " ++ "Formula nesting exceeds the maximum depth of ") := by
    decide +kernel
  rw [htext]
  exact (String.append_assoc.trans (congrArg ("Error: " ++ ·) String.append_assoc)).symm

/-- No run reports that evaluating has met the limit. -/
theorem report_run_ne (read : String → FileContent) (args : List String) (limit : Nat) :
    (run read args).report ≠ some ("Error: " ++ (Error.degree (.tooDeep limit)).message) := by
  rw [run]
  split
  · simp
  · simp
  · split
    · simp
    · next e he =>
      intro h
      have hmessage := (String.append_right_inj _).mp (Option.some.inj h)
      exact avoids_perform read _ e he (Error.isNesting_of_message_eq hmessage)

end CommandLine

/-! ### The limits agree -/

/-- **The limits agree.** A formula that is read under the limit of some settings is no deeper than
this limit, and evaluating it under the same settings never complains about its nesting, in any
frame at any agent and in any model at any world. So whatever the command is run for, and on
whatever files, the fault that it reports is never that evaluating has met the limit. -/
theorem limits_agree :
    (∀ (settings : Settings) (s : String) (φ : Formula),
      Formula.ofText settings.maxDepth s = .ok φ →
        φ.depth ≤ settings.maxDepth ∧
        (∀ (f : Trust.Frame) agent limit,
          f.evaluate settings.maxDepth φ agent ≠ .error (.tooDeep limit)) ∧
        ∀ (m : Kripke.Model) w limit,
          m.evaluate settings.maxDepth φ w ≠ .error (.tooDeep limit)) ∧
    (∀ read (i : CommandLine.Invocation) limit,
      CommandLine.perform read i ≠ .error (.degree (.tooDeep limit)) ∧
      CommandLine.perform read i ≠ .error (.evidence (.tooDeep limit))) ∧
    ∀ read args (limit : Nat), (CommandLine.run read args).report ≠ some
      ("Error: Eval error: Formula nesting exceeds the maximum depth of " ++ toString limit) := by
  refine ⟨fun settings s φ h => ?_, fun read i limit => ?_, fun read args limit => ?_⟩
  · have hdepth := depth_le_of_ofText h
    refine ⟨hdepth, fun f agent limit hdeep => ?_, fun m w limit hdeep => ?_⟩
    · exact f.avoids_degreeOf _ hdepth agent _ hdeep trivial
    · exact m.avoids_evaluate hdepth w _ hdeep trivial
  · have hperform := CommandLine.avoids_perform read i
    exact ⟨fun h => hperform _ h trivial, fun h => hperform _ h trivial⟩
  · have hreport := CommandLine.report_run_ne read args limit
    rw [CommandLine.nesting_report] at hreport
    exact hreport

/-- The possibility of a doubly negated variable, which nests four levels deep. -/
def notNot : Formula :=
  .unary (.modal .diamond) (.unary .negation (.unary .negation (.var "p")))

/-- A frame in which two agents trust each other. -/
def mutualTrust : Trust.Frame :=
  (Trust.Frame.empty.setTrust "a" "b" Degree.one).setTrust "b" "a" Degree.one

/-- Under a limit of four levels the formula is read, and it is not too deep for any agent or world;
under a limit of three it is neither read nor, at an agent or a world, evaluated. -/
theorem limits_agree_notNot :
    (Formula.ofText 4 "<>~~p" = .ok notNot ∧ notNot.depth ≤ 4 ∧
      (∀ limit, mutualTrust.evaluate 4 notNot "a" ≠ .error (.tooDeep limit)) ∧
      ∀ (m : Kripke.Model) limit, m.evaluate 4 notNot 0 ≠ .error (.tooDeep limit)) ∧
    Formula.ofText 3 "<>~~p" = .error (.parse (.tooDeep 3 3) ⟨4, 5, 1, 5⟩) ∧
    mutualTrust.evaluate 3 notNot "a" = .error (.tooDeep 3) ∧
    (Kripke.Draft.model { worlds := 1 }).evaluate 3 notNot 0 = .error (.tooDeep 3) := by
  have htext : Formula.ofText 4 "<>~~p" = .ok notNot := by decide +kernel
  obtain ⟨hread, -⟩ := limits_agree
  obtain ⟨hdepth, hdegree, hevidence⟩ := hread ⟨4⟩ "<>~~p" notNot htext
  refine ⟨⟨htext, hdepth, hdegree mutualTrust "a", fun m => hevidence m 0⟩, ?_, ?_, ?_⟩
  · decide +kernel
  · decide +kernel
  · rfl

end TrustLogic
