import Mathlib.Algebra.Order.Ring.Int
import AccessControl.Proofs.Eager.Expression
import AccessControl.Proofs.Induction

namespace AccessControl

def Arithmetic.InRange (x : Int) : Prop := -2 ^ 63 ≤ x ∧ x < 2 ^ 63

instance (x : Int) : Decidable (Arithmetic.InRange x) :=
  inferInstanceAs (Decidable (-2 ^ 63 ≤ x ∧ x < 2 ^ 63))

def Arithmetic.outOfRange (x : Int) (sign : String) (y : Int) : Reason :=
  .arithmetic (toString x ++ " " ++ sign ++ " " ++ toString y ++ " overflows or divides by zero")

namespace Function

def sign? : Function → Option String
  | add => some "+"
  | subtract => some "-"
  | multiply => some "*"
  | divide => some "/"
  | _ => none

def precise? : Function → List Int → Option Int
  | add, [x, y] => some (x + y)
  | subtract, [x, y] => some (x - y)
  | multiply, [x, y] => some (x * y)
  | divide, [x, y] => if y = 0 then none else some (x.tdiv y)
  | _, _ => none

end Function

def AttributeValue.integer? : AttributeValue → Option Int
  | simple (.integer n) => some n.toInt
  | _ => none

namespace Expression

mutual

def precise? (request : Request) : Expression → Option Int
  | literal v => v.integer?
  | ref a => (request.get? a).bind AttributeValue.integer?
  | call f es => (preciseAll? request es).bind f.precise?
  | _ => none

def preciseAll? (request : Request) : List Expression → Option (List Int)
  | [] => some []
  | e :: es => (e.precise? request).bind fun x => (preciseAll? request es).map (x :: ·)

end

mutual

def parts : Expression → List Expression
  | literal v => [literal v]
  | ref a => [ref a]
  | compare op l r => l.parts ++ r.parts ++ [compare op l r]
  | and es => partsOf es ++ [and es]
  | or es => partsOf es ++ [or es]
  | not e => e.parts ++ [not e]
  | call f es => partsOf es ++ [call f es]

def partsOf : List Expression → List Expression
  | [] => []
  | e :: es => e.parts ++ partsOf es

end

/-- Arithmetic with two arguments each on integer literals and bound integer attributes. -/
inductive Integral (request : Request) : Expression → Prop where
  | literal (n : Int64) : Integral request (literal (.simple (.integer n)))
  | ref {a : AttributeId} {n : Int64} : request.get? a = some (.simple (.integer n)) →
    (AttributeValue.simple (.integer n)).conformsTo a = true → Integral request (ref a)
  | call {f : Function} {sign : String} {l r : Expression} : f.sign? = some sign → Integral request l →
    Integral request r → Integral request (call f [l, r])

def Fits (request : Request) (e : Expression) : Prop :=
  ∃ x, e.precise? request = some x ∧ Arithmetic.InRange x

/-- Of these expressions the first that does not fit is a call whose operands have values, and the
reason names them with the sign of the call. -/
def FirstMisfit (request : Request) (es : List Expression) (reason : Reason) : Prop :=
  ∃ before f sign l r after x y, es = before ++ call f [l, r] :: after ∧ (∀ e ∈ before, e.Fits request) ∧
    ¬(call f [l, r]).Fits request ∧ f.sign? = some sign ∧ l.precise? request = some x ∧
    r.precise? request = some y ∧ reason = Arithmetic.outOfRange x sign y

end Expression

open Arithmetic (InRange)

theorem Arithmetic.inRange_toInt (n : Int64) : InRange n.toInt := ⟨n.le_toInt, n.toInt_lt⟩

theorem Arithmetic.fit_eq_some {x : Int} {n : Int64} : fit x = some n ↔ InRange x ∧ n.toInt = x := by
  have range : Int64.minValue.toInt ≤ x ∧ x ≤ Int64.maxValue.toInt ↔ InRange x := by
    rw [InRange, Int64.toInt_minValue, Int64.toInt_maxValue]
    omega
  unfold fit
  constructor
  · intro some
    split at some
    · rename_i bounds
      cases some
      have inRange := range.mp bounds
      exact ⟨inRange, Int64.toInt_ofInt_of_le inRange.1 inRange.2⟩
    · cases some
  · rintro ⟨inRange, rfl⟩
    rw [if_pos (range.mpr inRange), Int64.ofInt_toInt]

theorem Arithmetic.fit_eq_none {x : Int} : fit x = none ↔ ¬InRange x := by
  constructor
  · intro none inRange
    have some := fit_eq_some.mpr ⟨inRange, Int64.toInt_ofInt_of_le inRange.1 inRange.2⟩
    cases none.symm.trans some
  · intro out
    rw [Option.eq_none_iff_forall_ne_some]
    intro n some
    exact out (fit_eq_some.mp some).1

def Arithmetic.judged (x : Int) (sign : String) (y : Int) : Option Int64 → Except Reason AttributeValue
  | some n => .ok (.simple (.integer n))
  | none => .error (outOfRange x sign y)

theorem Arithmetic.apply_integers (o : Operation) (m n : Int64) :
    o.apply (.integer m) (.integer n) = judged m.toInt o.symbol n.toInt (o.integer m n) := by
  simp only [Operation.apply]
  cases o.integer m n <;> rfl

theorem Function.apply_integers {f : Function} {sign : String} (signed : f.sign? = some sign) (m n : Int64) :
    f.apply [.simple (.integer m), .simple (.integer n)] =
      Arithmetic.judged m.toInt sign n.toInt ((f.precise? [m.toInt, n.toInt]).bind Arithmetic.fit) := by
  cases f with
  | add =>
    cases signed
    exact Arithmetic.apply_integers Arithmetic.add m n
  | subtract =>
    cases signed
    exact Arithmetic.apply_integers Arithmetic.subtract m n
  | multiply =>
    cases signed
    exact Arithmetic.apply_integers Arithmetic.multiply m n
  | divide =>
    cases signed
    have quotient :
        Arithmetic.divide.integer m n = (divide.precise? [m.toInt, n.toInt]).bind Arithmetic.fit := by
      by_cases zero : n.toInt = 0 <;> simp [Arithmetic.divide, precise?, zero]
    rw [← quotient]
    exact Arithmetic.apply_integers Arithmetic.divide m n
  | _ => cases signed

namespace Expression

variable {request : Request}

theorem precise?_call (f : Function) (l r : Expression) :
    (call f [l, r]).precise? request =
      (l.precise? request).bind fun x => (r.precise? request).bind fun y => f.precise? [x, y] := by
  cases left : l.precise? request <;> cases right : r.precise? request <;>
    simp [precise?, preciseAll?, left, right]

theorem parts_call (f : Function) (l r : Expression) :
    (call f [l, r]).parts = l.parts ++ (r.parts ++ [call f [l, r]]) := by
  simp [parts, partsOf]

theorem FirstMisfit.within {es : List Expression} {reason : Reason} (misfit : FirstMisfit request es reason)
    (before : List Expression) (fit : ∀ e ∈ before, e.Fits request) (after : List Expression) :
    FirstMisfit request (before ++ (es ++ after)) reason := by
  obtain ⟨done, f, sign, l, r, rest, x, y, rfl, fits, found⟩ := misfit
  refine ⟨before ++ done, f, sign, l, r, rest ++ after, x, y, by simp, ?_, found⟩
  intro e member
  rcases List.mem_append.mp member with member | member
  · exact fit e member
  · exact fits e member

theorem FirstMisfit.not_fits {es : List Expression} {reason : Reason}
    (misfit : FirstMisfit request es reason) : ¬∀ e ∈ es, e.Fits request := by
  obtain ⟨done, f, sign, l, r, rest, x, y, rfl, _, unfit, _⟩ := misfit
  intro fits
  exact unfit (fits _ (by simp))

variable {ctx : Context}

theorem values_two (l r : Expression) (c : Cache) :
    values ctx [l, r] c =
      Cache.bind (l.value ctx) (fun a => Cache.bind (r.value ctx) fun b c => (.ok [a, b], c)) c := by
  rw [values_cons, values_cons]
  rcases first : l.value ctx c with ⟨_ | a, d⟩
  · simp only [Cache.bind, first]
  · rcases second : r.value ctx d with ⟨_ | b, _⟩ <;> simp only [Cache.bind, first, second, values]

/-- Arithmetic on integers has its exact value, with every part in range, or fails as its first part
that does not fit. -/
theorem Integral.outcome {e : Expression} (integral : e.Integral ctx.request) (c : Cache) :
    (∃ n : Int64, e.value ctx c = (.ok (.simple (.integer n)), c) ∧ e.precise? ctx.request = some n.toInt ∧
      ∀ s ∈ e.parts, s.Fits ctx.request) ∨
    ∃ reason, e.value ctx c = (.error reason, c) ∧ FirstMisfit ctx.request e.parts reason := by
  -- the operands come first, from left to right, and the first failure stands
  induction integral with
  | literal n =>
    refine .inl ⟨n, rfl, rfl, fun s member => ?_⟩
    rw [List.mem_singleton.mp member]
    exact ⟨n.toInt, rfl, Arithmetic.inRange_toInt n⟩
  | @ref a n bound conforms =>
    have precise : (Expression.ref a).precise? ctx.request = some n.toInt := by
      simp only [precise?, bound]
      rfl
    refine .inl ⟨n, ?_, precise, fun s member => ?_⟩
    · simp only [value, Cache.lookup, bound, Answer.check, if_pos conforms]
    · rw [List.mem_singleton.mp member]
      exact ⟨n.toInt, precise, Arithmetic.inRange_toInt n⟩
  | @call f sign l r signed _ _ left right =>
    have other : f ≠ .isPresent := by
      rintro rfl
      cases signed
    rw [value_call ctx other, parts_call]
    rcases left with ⟨m, leftValue, leftPrecise, leftFits⟩ | ⟨reason, failed, misfit⟩
    · rcases right with ⟨n, rightValue, rightPrecise, rightFits⟩ | ⟨reason, failed, misfit⟩
      · have precise : (Expression.call f [l, r]).precise? ctx.request = f.precise? [m.toInt, n.toInt] := by
          rw [precise?_call, leftPrecise, rightPrecise]
          rfl
        have operands : ∀ s ∈ l.parts ++ r.parts, s.Fits ctx.request :=
          List.forall_mem_append.mpr ⟨leftFits, rightFits⟩
        rw [← List.append_assoc]
        simp only [Cache.bind, values_two, leftValue, rightValue, f.apply_integers signed]
        cases result : (f.precise? [m.toInt, n.toInt]).bind Arithmetic.fit with
        | some k =>
          obtain ⟨x, found, fit⟩ := Option.bind_eq_some_iff.mp result
          obtain ⟨inRange, rfl⟩ := Arithmetic.fit_eq_some.mp fit
          refine .inl ⟨k, rfl, precise.trans found, ?_⟩
          rw [List.forall_mem_append, List.forall_mem_singleton]
          exact ⟨operands, k.toInt, precise.trans found, inRange⟩
        | none =>
          refine .inr ⟨_, rfl, l.parts ++ r.parts, f, sign, l, r, [], m.toInt, n.toInt, rfl, operands, ?_,
            signed, leftPrecise, rightPrecise, rfl⟩
          rintro ⟨x, found, inRange⟩
          rw [precise.symm.trans found, Option.bind_some, Arithmetic.fit_eq_none] at result
          exact result inRange
      · refine .inr ⟨reason, ?_, misfit.within l.parts leftFits _⟩
        simp only [Cache.bind, values_two, leftValue, failed]
    · refine .inr ⟨reason, ?_, misfit.within [] (by simp) _⟩
      simp only [Cache.bind, values_two, failed]

/-- Integer arithmetic of any depth has an integer value exactly if every part of it has one on unbounded
integers that fits 64 bits, and then it is that value. Otherwise it fails, and the reason names the
operands of the first operation, from left to right and innermost first, that has no such value. -/
theorem integral_value (ctx : Context) {e : Expression} (integral : e.Integral ctx.request) (c : Cache) :
    ((∃ n : Int64, (e.value ctx c).1 = .ok (.simple (.integer n))) ↔ ∀ s ∈ e.parts, s.Fits ctx.request) ∧
    (∀ n : Int64, (e.value ctx c).1 = .ok (.simple (.integer n)) → e.precise? ctx.request = some n.toInt) ∧
    ((¬∀ s ∈ e.parts, s.Fits ctx.request) →
      ∃ reason, (e.value ctx c).1 = .error reason ∧ FirstMisfit ctx.request e.parts reason) := by
  rcases integral.outcome c with ⟨m, result, precise, fits⟩ | ⟨reason, result, misfit⟩
  · rw [result]
    refine ⟨⟨fun _ => fits, fun _ => ⟨m, rfl⟩⟩, fun n same => ?_, fun unfit => absurd fits unfit⟩
    cases same
    exact precise
  · rw [result]
    refine ⟨⟨?_, fun fits => absurd fits misfit.not_fits⟩, ?_, fun _ => ⟨reason, rfl, misfit⟩⟩
    · rintro ⟨n, ⟨⟩⟩
    · rintro n ⟨⟩

theorem integral_value_level :
    let level : AttributeId := ⟨.subject, "level", .integer, .single⟩
    let number (n : Int64) : Expression := .literal (.simple (.integer n))
    let half : Expression := .call .divide [number (-7), .ref level]
    let turned : Expression := .call .multiply [number Int64.minValue, number (-1)]
    let broken : Expression := .call .add [half, .call .subtract [turned, .call .divide [half, number 0]]]
    let ctx : Context := ⟨Request.bind (.new "ann" "read" "doc1" ⟨2025, 1, 8, 10, 0, 0, 0, by decide⟩) level
      (.simple (.integer 2)), .empty⟩
    half.Integral ctx.request ∧ broken.Integral ctx.request ∧
      (half.value ctx .empty).1 = .ok (.simple (.integer (-3))) ∧ half.precise? ctx.request = some (-3) ∧
      (broken.value ctx .empty).1 = .error (Arithmetic.outOfRange (-9223372036854775808) "*" (-1)) ∧
      ∃ reason, (broken.value ctx .empty).1 = .error reason ∧
        FirstMisfit ctx.request broken.parts reason := by
  intro level number half turned broken ctx
  have level_bound : Integral ctx.request (.ref level) := .ref rfl rfl
  have half_integral : half.Integral ctx.request := .call rfl (.literal _) level_bound
  have turned_integral : turned.Integral ctx.request := .call rfl (.literal _) (.literal _)
  have broken_integral : broken.Integral ctx.request :=
    .call rfl half_integral (.call rfl turned_integral (.call rfl half_integral (.literal _)))
  have half_value : (half.value ctx .empty).1 = .ok (.simple (.integer (-3))) := rfl
  have turned_unfit : ¬turned.Fits ctx.request := by
    rintro ⟨x, found, inRange⟩
    cases found
    exact absurd inRange (by decide)
  have broken_unfit : ¬∀ s ∈ broken.parts, s.Fits ctx.request := fun fits =>
    turned_unfit (fits turned (by simp [broken, turned, parts, partsOf]))
  exact ⟨half_integral, broken_integral, half_value,
    (integral_value ctx half_integral .empty).2.1 (-3) half_value, rfl,
    (integral_value ctx broken_integral .empty).2.2 broken_unfit⟩

end Expression

end AccessControl
