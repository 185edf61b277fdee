import PeerMessaging.Proofs.WholeNumbers
import PeerMessaging.Exchange
/-!
Registry keys. A registry finds a key by SameValueZero: numbers by IEEE equality, under which the
two zeros are one number, with not-a-number equal to itself; text, booleans and big integers by
value; references never. That relation is symmetric and transitive. A registry in which every
type was registered under its own key finds a type only under keys equal to the type's own key,
and the registries the codecs are set up with are built so.
-/

namespace PeerMessaging

namespace Number

open Float.Model

/-- When two unpacked numbers are equal: infinities of one sign, zeros of either sign, or finite
numbers of one sign, mantissa and exponent. -/
def Same : UnpackedFloat → UnpackedFloat → Prop
  | .infinity s, .infinity t => s = t
  | .zero _, .zero _ => True
  | .finite s m e _, .finite t n f _ => s = t ∧ m = n ∧ e = f
  | _, _ => False

theorem compare_sign_self (s : UnpackedFloat.Sign) : compare s s = .eq := by
  cases s <;> rfl

theorem compare_eq_iff (a b : UnpackedFloat) : a.compare b = some .eq ↔ Same a b := by
  rcases a with s | _ | s | ⟨s, m, e, h⟩ <;> rcases b with t | _ | t | ⟨t, n, f, h'⟩ <;>
    (try cases s) <;> (try cases t) <;>
    simp [UnpackedFloat.compare, Same, Ordering.then_eq_eq, Ordering.swap_eq_eq, compare_sign_self,
      and_comm]

theorem Same.symm {a b : UnpackedFloat} (same : Same a b) : Same b a := by
  rcases a with s | _ | s | ⟨s, m, e, h⟩ <;> rcases b with t | _ | t | ⟨t, n, f, h'⟩ <;>
    simp_all [Same]

theorem Same.trans {a b c : UnpackedFloat} (first : Same a b) (second : Same b c) : Same a c := by
  rcases a with s | _ | s | ⟨s, m, e, h⟩ <;> rcases b with t | _ | t | ⟨t, n, f, h'⟩ <;>
    rcases c with u | _ | u | ⟨u, k, g, h''⟩ <;> simp_all [Same]

theorem beq_iff_same (x y : Float) : (x == y) = true ↔ Same x.toModel.unpack y.toModel.unpack := by
  show (x.toModel.unpack.compare y.toModel.unpack == some .eq) = true ↔ _
  rw [beq_iff_eq, compare_eq_iff]

theorem beq_symm {x y : Float} (same : (x == y) = true) : (y == x) = true :=
  (beq_iff_same y x).2 ((beq_iff_same x y).1 same).symm

theorem beq_trans {x y z : Float} (first : (x == y) = true) (second : (y == z) = true) :
    (x == z) = true :=
  (beq_iff_same x z).2 (((beq_iff_same x y).1 first).trans ((beq_iff_same y z).1 second))

theorem beq_not_nan {x y : Float} (same : (x == y) = true) : x.isNaN = false ∧ y.isNaN = false := by
  rw [beq_iff_same] at same
  show x.toModel.unpack.isNaN = false ∧ y.toModel.unpack.isNaN = false
  revert same
  rcases x.toModel.unpack with s | _ | s | ⟨s, m, e, h⟩ <;>
    rcases y.toModel.unpack with t | _ | t | ⟨t, n, f, h'⟩ <;> simp [Same, UnpackedFloat.isNaN]

theorem toFloat_beq_toFloat {a b : Nat} (sa : a < 2 ^ 53) (sb : b < 2 ^ 53) :
    (a.toFloat == b.toFloat) = true ↔ a = b := by
  rw [beq_iff_same, ← compare_eq_iff, unpack_toFloat sa, unpack_toFloat sb, compare_wholeForm sa sb]
  simp

theorem sameNumber_symm {x y : Float} (same : (x == y || x.isNaN && y.isNaN) = true) :
    (y == x || y.isNaN && x.isNaN) = true := by
  rcases Bool.or_eq_true_iff.1 same with equal | nan
  · rw [beq_symm equal, Bool.true_or]
  · rw [Bool.and_eq_true] at nan
    rw [nan.1, nan.2, Bool.and_self, Bool.or_true]

theorem sameNumber_trans {x y z : Float} (first : (x == y || x.isNaN && y.isNaN) = true)
    (second : (y == z || y.isNaN && z.isNaN) = true) : (x == z || x.isNaN && z.isNaN) = true := by
  rcases Bool.or_eq_true_iff.1 first with equal | nan
  · -- `y` equals a number, so it is no not-a-number and `z` equals it too
    have notNaN := (beq_not_nan equal).2
    rcases Bool.or_eq_true_iff.1 second with equal' | nan'
    · rw [beq_trans equal equal', Bool.true_or]
    · simp only [notNaN, Bool.false_and, Bool.false_eq_true] at nan'
  · rw [Bool.and_eq_true] at nan
    rcases Bool.or_eq_true_iff.1 second with equal' | nan'
    · simp only [(beq_not_nan equal').1, Bool.false_eq_true, and_false] at nan
    · rw [Bool.and_eq_true] at nan'
      rw [nan.1, nan'.2, Bool.and_self, Bool.or_true]

end Number

namespace Value

theorem sameValueZero_symm {a b : Value} (same : sameValueZero a b = true) : sameValueZero b a = true := by
  cases a
  case number x =>
    cases b <;> simp only [sameValueZero, Bool.false_eq_true] at same ⊢
    exact Number.sameNumber_symm same
  all_goals cases b <;> simp_all [sameValueZero]

theorem sameValueZero_trans {a b c : Value} (first : sameValueZero a b = true)
    (second : sameValueZero b c = true) : sameValueZero a c = true := by
  -- only values of one kind are equal, so `b` is of the kind of `a`, and then `c` too
  cases a <;> cases b <;> simp only [sameValueZero, Bool.false_eq_true] at first
  case number.number x y =>
    cases c <;> simp only [sameValueZero, Bool.false_eq_true] at second ⊢
    exact Number.sameNumber_trans first second
  all_goals cases c <;> simp_all [sameValueZero]

theorem sameValueZero_of_normalizeZero {a b : Value} (same : sameValueZero a.normalizeZero b = true) :
    sameValueZero a b = true := by
  cases a
  case number x =>
    simp only [normalizeZero] at same
    split at same
    · next zero =>
      -- the stored key is `0`, which the key itself equals
      have equal : sameValueZero (.number x) (.number 0) = true := by
        simp only [sameValueZero, zero, Bool.true_or]
      exact sameValueZero_trans equal same
    · exact same
  all_goals exact same

end Value

namespace Registry

variable {τ : Type} [Keyed τ]

/-- Every type is found only under keys equal to its own key. -/
def OwnKeyed (r : Registry τ) : Prop :=
  ∀ e ∈ r.entries, ∀ k, Value.sameValueZero e.1 k = true → Value.sameValueZero (Keyed.keyOf e.2) k = true

theorem ownKeyed_empty : (empty : Registry τ).OwnKeyed := by
  simp [OwnKeyed, empty]

/-- Setting a type under its own key keeps every type under its own key: a replaced entry keeps
a key equal to the new type's, and a new entry is that key with its zero normalized. -/
theorem OwnKeyed.put {r : Registry τ} (keyed : r.OwnKeyed) (t : τ) : (r.put (Keyed.keyOf t) t).OwnKeyed := by
  intro e member k found
  unfold Registry.put at member
  split at member
  · obtain ⟨old, oldMember, rfl⟩ := List.mem_map.1 member
    by_cases hit : Value.sameValueZero old.1 (Keyed.keyOf t) = true
    · simp only [hit, if_true] at found ⊢
      exact Value.sameValueZero_trans (Value.sameValueZero_symm hit) found
    · simp only [hit, Bool.false_eq_true, if_false] at found ⊢
      exact keyed old oldMember k found
  · rcases List.mem_append.1 member with old | new
    · exact keyed e old k found
    · rw [List.mem_singleton] at new
      subst new
      exact Value.sameValueZero_of_normalizeZero found

theorem OwnKeyed.registerType {r r' : Registry τ} (keyed : r.OwnKeyed) {t : τ}
    (registered : r.registerType t = .ok r') : r'.OwnKeyed := by
  unfold Registry.registerType Registry.register at registered
  cases checked : Keyed.checkKey τ (Keyed.keyOf t) with
  | error f => simp [checked, Except.map] at registered
  | ok u =>
    simp only [checked, Except.map, Except.ok.injEq] at registered
    exact registered ▸ keyed.put t

theorem OwnKeyed.registerAll {r : Registry τ} (keyed : r.OwnKeyed) (ts : List τ) :
    (r.registerAll ts).1.OwnKeyed := by
  induction ts generalizing r with
  | nil => exact keyed
  | cons t rest ih =>
    unfold Registry.registerAll
    split
    · next registered => exact ih (keyed.registerType registered)
    · exact keyed

theorem ownKeyed_registryWith {builtins extra : List τ} {r : Registry τ}
    (built : registryWith builtins extra = .ok r) : r.OwnKeyed := by
  have base : (Registry.empty.registerAll builtins).1.OwnKeyed := ownKeyed_empty.registerAll builtins
  unfold registryWith at built
  rcases first : Registry.empty.registerAll builtins with ⟨r₁, _⟩
  simp only [first] at built base
  rcases second : r₁.registerAll extra with ⟨r₂, _ | f⟩ <;> simp only [second] at built
  · cases built
    have all := base.registerAll extra
    rwa [second] at all
  · cases built

theorem OwnKeyed.keyOf_find {r : Registry τ} (keyed : r.OwnKeyed) {k : Value} {t : τ}
    (found : r.find? k = some t) : Value.sameValueZero (Keyed.keyOf t) k = true := by
  obtain ⟨e, hit, rfl⟩ := Option.map_eq_some_iff.1 found
  have hitKey := List.find?_some hit
  exact keyed e (List.mem_of_find?_eq_some hit) k hitKey

end Registry

end PeerMessaging
