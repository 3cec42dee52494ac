import TenantReports.Proofs.Report.Query
import TenantReports.Proofs.Sql.Basic

/-!
What a filter compares its column with: the operands, in order, and how each of them stands in
the query.
-/

namespace TenantReports

namespace Condition

def column : Condition → ColumnRef
  | compare ref _ _ => ref
  | like ref _ => ref
  | oneOf ref _ => ref
  | between ref _ _ => ref

def scalars : Condition → List Sql.Scalar
  | compare _ _ scalar => [scalar]
  | like _ pattern => [.literal pattern]
  | oneOf _ scalars => scalars
  | between _ low high => [.literal low, .literal high]

end Condition

namespace FilterOperator

/-- The values that a filter compares with, in order. One value is a choice of its own, and both
bounds of a range of its own. -/
def operands : FilterOperator → Value → List Value
  | oneOf, v => choices v
  | between, v =>
      match bounds? v with
      | some (low, high) => [low, high]
      | none => []
  | _, v => [v]

/-- Whether an operand stands in quotes: null never does, and numbers that are compared with do
not either. -/
def quotes : FilterOperator → Value → Bool
  | _, .null => false
  | compare _, v => !Sql.isNumericLiteral v
  | _, _ => true

def scalar : FilterOperator → Value → Sql.Scalar
  | compare _, v => .ofValue v
  | _, v => .quoted v

theorem scalar_sound (operator : FilterOperator) (v : Value) : (operator.scalar v).Sound := by
  cases operator with
  | compare comparison => exact Sql.Scalar.ofValue_sound v
  | _ => exact Sql.Scalar.quoted_sound v

theorem scalar_of_quotes {operator : FilterOperator} {v : Value}
    (h : operator.quotes v = true) : operator.scalar v = .literal v.plainText := by
  have hnull : v ≠ .null := by
    rintro rfl
    cases operator with
    | _ => cases h
  cases operator with
  | compare comparison =>
      have hnumeric : Sql.isNumericLiteral v = false := by
        cases v with
        | null => rfl
        | _ => simpa [quotes] using h
      exact (Sql.Scalar.ofValue_not_numeric hnumeric).trans (Sql.Scalar.quoted_of_ne_null hnull)
  | _ => exact Sql.Scalar.quoted_of_ne_null hnull

theorem scalar_of_not_quotes {operator : FilterOperator} {v : Value}
    (h : operator.quotes v = false) :
    (v = .null ∧ operator.scalar v = .null) ∨
      (Sql.isNumericLiteral v = true ∧
        operator.scalar v = .number (String.ofList (Text.trim v.plainChars))) := by
  by_cases hnull : v = .null
  · subst hnull
    refine Or.inl ⟨rfl, ?_⟩
    cases operator with
    | _ => rfl
  · cases operator with
    | compare comparison =>
        have hnumeric : Sql.isNumericLiteral v = true := by
          cases v with
          | null => exact absurd rfl hnull
          | _ => simpa [quotes] using h
        exact Or.inr ⟨hnumeric, Sql.Scalar.ofValue_numeric hnumeric⟩
    | _ =>
        cases v with
        | null => exact absurd rfl hnull
        | _ => cases h

end FilterOperator

theorem operandText_of_ne_null {v : Value} (h : v ≠ .null) (column : ColumnRef)
    (operator : FilterOperator) : operandText column operator v = .ok v.plainText := by
  cases v with
  | null => exact absurd rfl h
  | _ => rfl

theorem operandText_eq_ok {column : ColumnRef} {operator : FilterOperator} {v : Value}
    {text : String} :
    operandText column operator v = .ok text ↔ v ≠ .null ∧ text = v.plainText := by
  by_cases hnull : v = .null
  · subst hnull
    constructor
    · intro h
      cases h
    · rintro ⟨hne, _⟩
      exact absurd rfl hne
  · rw [operandText_of_ne_null hnull]
    constructor
    · intro h
      exact ⟨hnull, (Except.ok.inj h).symm⟩
    · rintro ⟨_, rfl⟩
      rfl

theorem betweenCondition_eq_ok {column : ColumnRef} {v : Value} {condition : Condition} :
    betweenCondition column v = .ok condition ↔
      ∃ low high, bounds? v = some (low, high) ∧ low ≠ .null ∧ high ≠ .null ∧
        condition = .between column low.plainText high.plainText := by
  unfold betweenCondition
  cases hbounds : bounds? v with
  | none =>
      constructor
      · rintro ⟨⟩
      · rintro ⟨_, _, ⟨⟩, _⟩
  | some bounds =>
      obtain ⟨low, high⟩ := bounds
      simp only [bind_eq_ok, operandText_eq_ok]
      constructor
      · rintro ⟨_, ⟨hlow, rfl⟩, _, ⟨hhigh, rfl⟩, ⟨⟩⟩
        exact ⟨low, high, rfl, hlow, hhigh, rfl⟩
      · rintro ⟨_, _, ⟨⟩, hlow, hhigh, rfl⟩
        exact ⟨_, ⟨hlow, rfl⟩, _, ⟨hhigh, rfl⟩, rfl⟩

theorem oneOfCondition_eq_ok {column : ColumnRef} {v : Value} {condition : Condition} :
    oneOfCondition column v = .ok condition ↔
      choices v ≠ [] ∧ condition = .oneOf column ((choices v).map Sql.Scalar.quoted) := by
  unfold oneOfCondition
  split
  · next hchoices =>
      rw [hchoices]
      constructor
      · rintro ⟨⟩
      · rintro ⟨hne, _⟩
        exact absurd rfl hne
  · next hne =>
      constructor
      · rintro ⟨⟩
        exact ⟨hne, rfl⟩
      · rintro ⟨_, rfl⟩
        rfl

theorem likeCondition_eq_ok {column : ColumnRef} {v : Value} {condition : Condition} :
    conditionOn column .like v = .ok condition ↔
      v ≠ .null ∧ condition = .like column v.plainText := by
  unfold conditionOn
  simp only [bind_eq_ok, operandText_eq_ok]
  constructor
  · rintro ⟨_, ⟨hne, rfl⟩, ⟨⟩⟩
    exact ⟨hne, rfl⟩
  · rintro ⟨hne, rfl⟩
    exact ⟨_, ⟨hne, rfl⟩, rfl⟩

/-- A condition is on its filter's column and compares with its filter's operands, in order. -/
theorem conditionOn_scalars {column : ColumnRef} {operator : FilterOperator} {v : Value}
    {condition : Condition} (h : conditionOn column operator v = .ok condition) :
    condition.column = column ∧
      condition.scalars = (operator.operands v).map operator.scalar := by
  cases operator with
  | compare comparison =>
      cases h
      exact ⟨rfl, rfl⟩
  | like =>
      obtain ⟨hne, rfl⟩ := likeCondition_eq_ok.mp h
      refine ⟨rfl, ?_⟩
      change [_] = [Sql.Scalar.quoted v]
      rw [Sql.Scalar.quoted_of_ne_null hne]
  | oneOf =>
      obtain ⟨_, rfl⟩ := oneOfCondition_eq_ok.mp h
      exact ⟨rfl, rfl⟩
  | between =>
      obtain ⟨low, high, hbounds, hlow, hhigh, rfl⟩ := betweenCondition_eq_ok.mp h
      refine ⟨rfl, ?_⟩
      simp only [FilterOperator.operands, hbounds, List.map_cons, List.map_nil]
      change _ = [Sql.Scalar.quoted low, Sql.Scalar.quoted high]
      rw [Sql.Scalar.quoted_of_ne_null hlow, Sql.Scalar.quoted_of_ne_null hhigh]
      rfl
  | unsupported name => cases h

end TenantReports
