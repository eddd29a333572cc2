import Mathlib.Algebra.Group.Nat.Even
import TrustLogic.Proofs.Formula.Variables

/-!
# The occurrences of subformulas

A subformula may occur several times in a formula, and it may matter of which operators it stands in
an operand: some operands exchange the evidence for what stands in them with the evidence against
it, others turn more of it into less. How often such an operand is entered on the way from the root
down to an occurrence is counted here, for any choice of the operands that count.

* `TrustLogic.Operand` – the operands of the operators.
* `TrustLogic.Formula.occurrences` – the occurrences of subformulas, each with its count.
* `TrustLogic.turned` – a relation that is turned around as often as operands count. It is the
  relation itself for an even count and its converse for an odd one, which are the signs of the
  occurrences.

Every variable of a formula has an occurrence, whatever counts
(`TrustLogic.Formula.mem_names_iff_exists_occurrence`), and nothing counts in a formula without
the operators whose operands do (`TrustLogic.Formula.eq_of_mem_occurrences`).
-/

namespace TrustLogic

/-- An operand of an operator. -/
inductive Operand
  /-- The only operand of a unary operator. -/
  | only (op : Unary)
  /-- The operand on the left of a binary operator. -/
  | left (op : Binary)
  /-- The operand on the right of a binary operator. -/
  | right (op : Binary)
deriving DecidableEq, Repr

/-- The operator whose operand it is. -/
def Operand.operator : Operand → Operator
  | .only op => .unary op
  | .left op => .binary op
  | .right op => .binary op

namespace Formula

/-- The operators of a formula, in the order in which they are read but for those between two
operands, which come first. -/
def operators : Formula → List Operator
  | var _ => []
  | unary op φ => .unary op :: φ.operators
  | binary op φ ψ => .binary op :: (φ.operators ++ ψ.operators)

/-- **The occurrences of subformulas** in the order in which they are read, each with the number of
operands that count on the way down to it. For the formula itself this is the given number. -/
def occurrences (counts : Operand → Bool) (n : Nat) : Formula → List (Nat × Formula)
  | var name => [(n, var name)]
  | unary op φ => (n, unary op φ) :: φ.occurrences counts (n + (counts (.only op)).toNat)
  | binary op φ ψ => (n, binary op φ ψ) ::
      (φ.occurrences counts (n + (counts (.left op)).toNat)
        ++ ψ.occurrences counts (n + (counts (.right op)).toNat))

section Occurrences

variable {counts : Operand → Bool} {n k : Nat} {φ ψ χ : Formula}

theorem mem_occurrences_unary {op : Unary}
    (h : (k, χ) ∈ φ.occurrences counts (n + (counts (.only op)).toNat)) :
    (k, χ) ∈ (unary op φ).occurrences counts n :=
  List.mem_cons_of_mem _ h

theorem mem_occurrences_binary_left {op : Binary}
    (h : (k, χ) ∈ φ.occurrences counts (n + (counts (.left op)).toNat)) :
    (k, χ) ∈ (binary op φ ψ).occurrences counts n :=
  List.mem_cons_of_mem _ (List.mem_append_left _ h)

theorem mem_occurrences_binary_right {op : Binary}
    (h : (k, χ) ∈ ψ.occurrences counts (n + (counts (.right op)).toNat)) :
    (k, χ) ∈ (binary op φ ψ).occurrences counts n :=
  List.mem_cons_of_mem _ (List.mem_append_right _ h)

/-- **The variables of a formula are those that occur in it**, whatever counts. -/
theorem mem_names_iff_exists_occurrence {name : String} :
    name ∈ φ.names ↔ ∃ k, (k, var name) ∈ φ.occurrences counts n := by
  induction φ generalizing n with
  | var name' => simp [names, occurrences]
  | unary op φ ih =>
    rw [names, ih (n := n + (counts (.only op)).toNat)]
    simp [occurrences]
  | binary op φ ψ ihφ ihψ =>
    rw [names, List.mem_append, ihφ (n := n + (counts (.left op)).toNat),
      ihψ (n := n + (counts (.right op)).toNat), ← exists_or]
    simp [occurrences]

/-- **Where no operand counts, no occurrence has a count of its own.** -/
theorem eq_of_mem_occurrences (hcounts : ∀ o, counts o = true → o.operator ∉ φ.operators)
    (h : (k, χ) ∈ φ.occurrences counts n) : k = n := by
  induction φ generalizing n with
  | var name =>
    rw [occurrences, List.mem_singleton] at h
    exact congrArg Prod.fst h
  | unary op φ ih =>
    have honly : counts (.only op) = false :=
      Bool.eq_false_iff.mpr fun hc => hcounts _ hc List.mem_cons_self
    rw [occurrences, honly, List.mem_cons] at h
    rcases h with h | h
    · exact congrArg Prod.fst h
    · exact ih (fun o ho hmem => hcounts o ho (List.mem_cons_of_mem _ hmem)) h
  | binary op φ ψ ihφ ihψ =>
    have hoperand (o : Operand) (ho : o.operator = .binary op) : counts o = false :=
      Bool.eq_false_iff.mpr fun hc => hcounts o hc (ho ▸ List.mem_cons_self)
    rw [occurrences, hoperand (.left op) rfl, hoperand (.right op) rfl, List.mem_cons,
      List.mem_append] at h
    rcases h with h | h | h
    · exact congrArg Prod.fst h
    · refine ihφ (fun o ho hmem => hcounts o ho ?_) h
      exact List.mem_cons_of_mem _ (List.mem_append_left _ hmem)
    · refine ihψ (fun o ho hmem => hcounts o ho ?_) h
      exact List.mem_cons_of_mem _ (List.mem_append_right _ hmem)

end Occurrences

end Formula

/-! ### Turning a relation around -/

section Turned

variable {α : Type} {r : α → α → Prop} {n : Nat} {a b : α}

/-- **A relation turned around** the given number of times. -/
def turned (r : α → α → Prop) : Nat → α → α → Prop
  | 0 => r
  | n + 1 => fun a b => turned r n b a

theorem turned_add (r : α → α → Prop) (n k : Nat) : turned r (n + k) = turned (turned r n) k := by
  induction k with
  | zero => rfl
  | succ k ih =>
    funext a b
    exact congrFun (congrFun ih b) a

/-- For an even number it is the relation itself, and for an odd one its converse. -/
theorem turned_iff : turned r n a b ↔ if Even n then r a b else r b a := by
  induction n generalizing a b with
  | zero => rw [turned, if_pos Even.zero]
  | succ n ih =>
    change turned r n b a ↔ _
    rw [ih]
    by_cases hn : Even n <;> simp [Nat.even_add_one, hn]

/-- What takes related arguments to related results does so too if all relations are turned
around. -/
theorem turned_map₂ {β γ : Type} {s : β → β → Prop} {t : γ → γ → Prop} {f : α → β → γ}
    (hf : ∀ a a' b b', r a a' → s b b' → t (f a b) (f a' b')) {a a' : α} {b b' : β}
    (ha : turned r n a a') (hb : turned s n b b') : turned t n (f a b) (f a' b') := by
  by_cases hn : Even n
  · simp only [turned_iff, if_pos hn] at ha hb ⊢
    exact hf a a' b b' ha hb
  · simp only [turned_iff, if_neg hn] at ha hb ⊢
    exact hf a' a b' b ha hb

end Turned

end TrustLogic
