import PeerMessaging.Proofs.RegistryKeys
/-!
A registry is the replay of its history. Any run of calls on a registry (`register`,
`registerType`, `registerAll`, each of which may be refused) is the same as setting, one after
another, the registrations that were accepted. Read back through that history, the type under a
key is the last one registered under an equal key, and the keys are the registered keys in order
of their first registration, each once, whatever overwrites came later. Registering a list of
types registers them one by one up to the first refusal, and a second run of the same list,
whose keys are each equal to themselves, leaves the table as it is.
-/

namespace PeerMessaging

namespace Value

theorem sameValueZero_self_of_left {a b : Value} (same : sameValueZero a b = true) :
    sameValueZero b b = true :=
  sameValueZero_trans (sameValueZero_symm same) same

theorem sameValueZero_comm (a b : Value) : sameValueZero a b = sameValueZero b a :=
  Bool.eq_iff_iff.2 ⟨sameValueZero_symm, sameValueZero_symm⟩

theorem sameValueZero_of_common {a b c : Value} (left : sameValueZero a c = true)
    (right : sameValueZero b c = true) : sameValueZero a b = true :=
  sameValueZero_trans left (sameValueZero_symm right)

@[simp] theorem sameValueZero_normalizeZero (a b : Value) :
    sameValueZero a.normalizeZero b = sameValueZero a b := by
  refine Bool.eq_iff_iff.2 ⟨sameValueZero_of_normalizeZero, fun same => ?_⟩
  cases a
  case number x =>
    simp only [normalizeZero]
    split
    · next zero =>
      have equal : sameValueZero (.number 0) (.number x) = true := by
        simp only [sameValueZero, Number.beq_symm zero, Bool.true_or]
      exact sameValueZero_trans equal same
    · exact same
  all_goals exact same

end Value

namespace Fault

theorem unknown_of_toText {k : Value} {s : Text} (text : k.toText = .ok s) :
    Fault.unknown k = .unknownType k := by
  unfold Fault.unknown
  split
  · rfl
  · simp [text]

end Fault

namespace Registry

variable {τ : Type}

/-! ### The type found under a key -/

def lastUnder (h : List (Value × τ)) (k : Value) : Option τ :=
  (h.reverse.find? fun e => Value.sameValueZero e.1 k).map (·.2)

@[simp] theorem lastUnder_nil (k : Value) : lastUnder ([] : List (Value × τ)) k = none := rfl

theorem lastUnder_cons (e : Value × τ) (h : List (Value × τ)) (k : Value) :
    lastUnder (e :: h) k = (lastUnder h k).or (if Value.sameValueZero e.1 k then some e.2 else none) := by
  unfold lastUnder
  rw [List.reverse_cons, List.find?_append, Option.map_or]
  by_cases hit : Value.sameValueZero e.1 k = true <;> simp [hit]

theorem lastUnder_concat (h : List (Value × τ)) (e : Value × τ) (k : Value) :
    lastUnder (h ++ [e]) k = if Value.sameValueZero e.1 k then some e.2 else lastUnder h k := by
  unfold lastUnder
  rw [List.reverse_append, List.reverse_singleton, List.singleton_append, List.find?_cons]
  by_cases hit : Value.sameValueZero e.1 k = true <;> simp [hit]

theorem lastUnder_isSome {h : List (Value × τ)} {k : Value} :
    (lastUnder h k).isSome ↔ ∃ e ∈ h, Value.sameValueZero e.1 k = true := by
  simp [lastUnder, List.find?_isSome]

theorem resolve_eq_ok_iff (r : Registry τ) (k : Value) (t : τ) :
    r.resolve k = .ok t ↔ r.find? k = some t := by
  unfold resolve
  cases r.find? k <;> simp

theorem resolve_of_find?_none {r : Registry τ} {k : Value} (missing : r.find? k = none) :
    r.resolve k = .error (Fault.unknown k) := by
  simp [resolve, missing]

theorem has_iff_resolve (r : Registry τ) (k : Value) : r.has k = true ↔ ∃ t, r.resolve k = .ok t := by
  simp only [has, resolve_eq_ok_iff, Option.isSome_iff_exists]

theorem find?_empty (k : Value) : (empty : Registry τ).find? k = none := rfl

/-- Setting `k` makes `t` the type of every key equal to `k` and leaves the other keys alone. -/
theorem find?_put (r : Registry τ) (k x : Value) (t : τ) :
    (r.put k t).find? x = if Value.sameValueZero k x then some t else r.find? x := by
  unfold put find?
  split
  · next present =>
    -- the entries are mapped in place, and `x` finds the first entry equal to it as before
    rw [List.find?_map, Option.map_map]
    have keepsKeys : ((fun e : Value × τ => Value.sameValueZero e.1 x) ∘
        fun e => if Value.sameValueZero e.1 k then (e.1, t) else e) =
        fun e => Value.sameValueZero e.1 x := by
      funext e
      simp only [Function.comp_apply]
      split <;> rfl
    rw [keepsKeys]
    cases found : r.entries.find? (fun e => Value.sameValueZero e.1 x) with
    | some e =>
      -- the entry `x` finds equals `k` exactly when `x` does
      have ex := List.find?_some found
      have same : Value.sameValueZero e.1 k = Value.sameValueZero k x :=
        Bool.eq_iff_iff.2 ⟨fun ek => Value.sameValueZero_trans (Value.sameValueZero_symm ek) ex,
          Value.sameValueZero_of_common ex⟩
      by_cases hit : Value.sameValueZero k x = true <;> simp [same, hit]
    | none =>
      have hit : Value.sameValueZero k x = false := by
        refine Bool.eq_false_iff.2 fun hit => ?_
        obtain ⟨e, member, ek⟩ := List.any_eq_true.1 present
        exact List.find?_eq_none.1 found e member (Value.sameValueZero_trans ek hit)
      simp [hit]
  · next absent =>
    rw [List.find?_append, List.find?_singleton, Value.sameValueZero_normalizeZero]
    by_cases hit : Value.sameValueZero k x = true
    · -- no old entry equals `x`, since it would equal `k`
      have none : r.entries.find? (fun e => Value.sameValueZero e.1 x) = none := by
        refine List.find?_eq_none.2 fun e member ex => absent ?_
        exact List.any_eq_true.2 ⟨e, member, Value.sameValueZero_of_common ex hit⟩
      simp [hit, none]
    · simp [hit]

/-! ### Replaying a history -/

def replay (r : Registry τ) (h : List (Value × τ)) : Registry τ :=
  h.foldl (fun r e => r.put e.1 e.2) r

@[simp] theorem replay_nil (r : Registry τ) : replay r [] = r := rfl

@[simp] theorem replay_cons (r : Registry τ) (e : Value × τ) (h : List (Value × τ)) :
    replay r (e :: h) = replay (r.put e.1 e.2) h := rfl

theorem replay_append (r : Registry τ) (h h' : List (Value × τ)) :
    replay r (h ++ h') = replay (replay r h) h' := List.foldl_append

theorem find?_replay (r : Registry τ) (h : List (Value × τ)) (k : Value) :
    (replay r h).find? k = (lastUnder h k).or (r.find? k) := by
  induction h generalizing r with
  | nil => simp
  | cons e h ih =>
    rw [replay_cons, ih, find?_put, lastUnder_cons]
    by_cases hit : Value.sameValueZero e.1 k = true <;> simp [hit]

/-! ### The keys in order of first registration -/

def firstOccurrences (seen : List Value) : List Value → List Value
  | [] => []
  | k :: ks =>
    if seen.any (Value.sameValueZero · k) then firstOccurrences seen ks
    else k :: firstOccurrences (k :: seen) ks

theorem any_keys (r : Registry τ) (k : Value) :
    r.keys.any (Value.sameValueZero · k) = r.entries.any (fun e => Value.sameValueZero e.1 k) := by
  simp [keys, List.any_map, Function.comp_def]

/-- A history appends its new keys, with their zeros normalised, in order of first
registration; `seen` stands for the keys already there. -/
theorem keys_replay (r : Registry τ) (h : List (Value × τ)) (seen : List Value)
    (stands : ∀ x, r.keys.any (Value.sameValueZero · x) = seen.any (Value.sameValueZero · x)) :
    (replay r h).keys = r.keys ++ (firstOccurrences seen (h.map (·.1))).map Value.normalizeZero := by
  induction h generalizing r seen with
  | nil => simp [firstOccurrences]
  | cons e h ih =>
    have keys := keys_put r e.1 e.2
    rw [← any_keys, stands] at keys
    rw [replay_cons, List.map_cons, firstOccurrences]
    split
    · next known =>
      rw [if_pos known] at keys
      rw [ih (r.put e.1 e.2) seen (by rw [keys]; exact stands), keys]
    · next new =>
      rw [if_neg new] at keys
      have stands' : ∀ x, (r.put e.1 e.2).keys.any (Value.sameValueZero · x) =
          (e.1 :: seen).any (Value.sameValueZero · x) := by
        intro x
        rw [keys, List.any_append, stands]
        simp [Bool.or_comm]
      rw [ih (r.put e.1 e.2) (e.1 :: seen) stands', keys]
      simp

theorem keys_replay_empty (h : List (Value × τ)) :
    (replay empty h).keys = (firstOccurrences [] (h.map (·.1))).map Value.normalizeZero :=
  keys_replay empty h [] (fun _ => rfl)

/-! ### A second replay changes nothing -/

theorem put_of_present {r : Registry τ} {k : Value} (t : τ)
    (present : r.entries.any (fun e => Value.sameValueZero e.1 k) = true) :
    r.put k t = ⟨r.entries.map fun e => if Value.sameValueZero e.1 k then (e.1, t) else e⟩ := by
  simp [put, present]

/-- A history whose keys are all present already only changes types in place, each key taking
the last type registered under it. -/
theorem replay_of_present (r : Registry τ) (h : List (Value × τ))
    (present : ∀ e ∈ h, r.entries.any (fun e' => Value.sameValueZero e'.1 e.1) = true) :
    replay r h = ⟨r.entries.map fun e => (e.1, (lastUnder h e.1).getD e.2)⟩ := by
  induction h generalizing r with
  | nil => simp
  | cons e h ih =>
    have here := present e (by simp)
    have keepsKeys : (r.put e.1 e.2).keys = r.keys := by simp [keys_put, here]
    rw [replay_cons, ih (r.put e.1 e.2) fun e' member => by
      rw [← any_keys, keepsKeys, any_keys]; exact present e' (List.mem_cons_of_mem e member)]
    rw [put_of_present e.2 here, List.map_map]
    congr 1
    refine List.map_congr_left fun e' _ => ?_
    simp only [Function.comp_apply, lastUnder_cons, Value.sameValueZero_comm e'.1 e.1]
    cases found : lastUnder h e'.1 <;> by_cases hit : Value.sameValueZero e.1 e'.1 = true <;>
      simp [found, hit]

/-- Every entry after a history holds the last type registered under its key. -/
theorem replay_holds_last (r : Registry τ) (h : List (Value × τ)) :
    ∀ e ∈ (replay r h).entries, ∀ t, lastUnder h e.1 = some t → e.2 = t := by
  induction h using List.reverseRecOn with
  | nil => simp
  | append_singleton h last ih =>
    intro e member t found
    rw [replay_append, replay_cons, replay_nil] at member
    rw [lastUnder_concat] at found
    unfold put at member
    split at member
    · next present =>
      obtain ⟨old, oldMember, rfl⟩ := List.mem_map.1 member
      by_cases hit : Value.sameValueZero old.1 last.1 = true
      · simp only [hit, if_true, Value.sameValueZero_symm hit, Option.some.injEq] at found ⊢
        exact found
      · have miss : Value.sameValueZero last.1 old.1 = false := by
          rw [Value.sameValueZero_comm]
          exact Bool.eq_false_iff.2 hit
        simp only [hit, miss, Bool.false_eq_true, if_false] at found ⊢
        exact ih old oldMember t found
    · next absent =>
      rcases List.mem_append.1 member with old | new
      · -- an old entry does not equal the new key, which was absent
        have miss : Value.sameValueZero last.1 e.1 = false := by
          refine Bool.eq_false_iff.2 fun hit => absent ?_
          exact List.any_eq_true.2 ⟨e, old, Value.sameValueZero_symm hit⟩
        simp only [miss, Bool.false_eq_true, if_false] at found
        exact ih e old t found
      · rw [List.mem_singleton] at new
        subst new
        by_cases self : Value.sameValueZero last.1 last.1.normalizeZero = true
        · simp only [self, if_true, Option.some.injEq] at found
          exact found
        · -- a key unequal to itself is equal to no registered key
          simp only [self, Bool.false_eq_true, if_false] at found
          obtain ⟨e', _, equal⟩ := lastUnder_isSome.1 (Option.isSome_of_eq_some found)
          have := Value.sameValueZero_self_of_left equal
          rw [Value.sameValueZero_normalizeZero] at this
          exact absurd this self

theorem replay_present (r : Registry τ) (h : List (Value × τ)) {e : Value × τ} (member : e ∈ h)
    (self : Value.sameValueZero e.1 e.1 = true) :
    (replay r h).entries.any (fun e' => Value.sameValueZero e'.1 e.1) = true := by
  have found : ((replay r h).find? e.1).isSome := by
    rw [find?_replay]
    have last : (lastUnder h e.1).isSome := lastUnder_isSome.2 ⟨e, member, self⟩
    cases hit : lastUnder h e.1 with
    | none => simp [hit] at last
    | some t => rfl
  simpa [find?, List.find?_isSome] using found

theorem replay_replay (r : Registry τ) (h : List (Value × τ))
    (self : ∀ e ∈ h, Value.sameValueZero e.1 e.1 = true) :
    replay (replay r h) h = replay r h := by
  have unchanged : (replay r h).entries.map (fun e => (e.1, (lastUnder h e.1).getD e.2)) =
      (replay r h).entries := by
    refine (List.map_congr_left fun e member => ?_).trans (List.map_id _)
    cases found : lastUnder h e.1 with
    | none => rfl
    | some t =>
      rw [Option.getD_some, ← replay_holds_last r h e member t found]
      rfl
  rw [replay_of_present (replay r h) h fun e member => replay_present r h member (self e member),
    unchanged]

/-! ### Calls and the registrations they make -/

/-- A call on a registry. -/
inductive Call (τ : Type) where
  | register (k : Value) (t : τ)
  | registerType (t : τ)
  | registerAll (ts : List τ)

variable [Keyed τ]

def accepts (τ : Type) [Keyed τ] (k : Value) : Bool := (Keyed.checkKey τ k).isOk

namespace Call

def apply (r : Registry τ) : Call τ → Registry τ
  | .register k t => ((r.register k t).toOption).getD r
  | .registerType t => ((r.registerType t).toOption).getD r
  | .registerAll ts => (r.registerAll ts).1

def registrations : Call τ → List (Value × τ)
  | .register k t => if accepts τ k then [(k, t)] else []
  | .registerType t => if accepts τ (Keyed.keyOf t) then [(Keyed.keyOf t, t)] else []
  | .registerAll ts => (ts.takeWhile fun t => accepts τ (Keyed.keyOf t)).map fun t => (Keyed.keyOf t, t)

end Call

def run (r : Registry τ) (cs : List (Call τ)) : Registry τ := cs.foldl Call.apply r

def registrations (cs : List (Call τ)) : List (Value × τ) := cs.flatMap Call.registrations

theorem register_of_accepts {r : Registry τ} {k : Value} {t : τ} (accepted : accepts τ k = true) :
    r.register k t = .ok (r.put k t) := by
  unfold register
  unfold accepts at accepted
  cases checked : Keyed.checkKey τ k with
  | ok u => rfl
  | error f => simp [checked, Except.isOk, Except.toBool] at accepted

theorem register_of_refused {r : Registry τ} {k : Value} {t : τ} {f : Fault}
    (refused : Keyed.checkKey τ k = .error f) : r.register k t = .error f := by
  simp [register, refused, Except.map]

theorem accepts_of_ok {k : Value} (checked : Keyed.checkKey τ k = .ok ()) : accepts τ k = true := by
  simp [accepts, checked, Except.isOk, Except.toBool]

theorem accepts_of_error {k : Value} {f : Fault} (refused : Keyed.checkKey τ k = .error f) :
    accepts τ k = false := by
  simp [accepts, refused, Except.isOk, Except.toBool]

theorem register_apply (r : Registry τ) (k : Value) (t : τ) :
    ((r.register k t).toOption).getD r = replay r (if accepts τ k then [(k, t)] else []) := by
  cases checked : Keyed.checkKey τ k with
  | ok u =>
    have accepted := accepts_of_ok checked
    simp [register_of_accepts accepted, accepted, Except.toOption]
  | error f =>
    simp [register_of_refused checked, accepts_of_error checked, Except.toOption]

theorem registerAll_eq_replay (r : Registry τ) (ts : List τ) :
    (r.registerAll ts).1 = replay r (Call.registrations (.registerAll ts)) := by
  induction ts generalizing r with
  | nil => rfl
  | cons t ts ih =>
    simp only [Call.registrations, List.takeWhile_cons]
    unfold registerAll registerType
    by_cases accepted : accepts τ (Keyed.keyOf t) = true
    · rw [register_of_accepts accepted, if_pos accepted, List.map_cons, replay_cons]
      exact ih _
    · cases checked : Keyed.checkKey τ (Keyed.keyOf t) with
      | ok u => exact absurd (accepts_of_ok checked) accepted
      | error f => simp [register_of_refused checked, accepted]

theorem apply_eq_replay (r : Registry τ) (c : Call τ) : c.apply r = replay r c.registrations := by
  cases c with
  | register k t => exact register_apply r k t
  | registerType t => exact register_apply r (Keyed.keyOf t) t
  | registerAll ts => exact registerAll_eq_replay r ts

theorem run_eq_replay (r : Registry τ) (cs : List (Call τ)) : run r cs = replay r (registrations cs) := by
  induction cs generalizing r with
  | nil => rfl
  | cons c cs ih =>
    show run (c.apply r) cs = _
    rw [ih, apply_eq_replay]
    simp only [registrations, List.flatMap_cons, replay_append]

/-! ### Registering a list -/

theorem registerAll_append_of_accepted (r : Registry τ) {pre : List τ} (rest : List τ)
    (accepted : ∀ t ∈ pre, Keyed.checkKey τ (Keyed.keyOf t) = .ok ()) :
    r.registerAll (pre ++ rest) = (run r (pre.map .registerType)).registerAll rest := by
  induction pre generalizing r with
  | nil => rfl
  | cons t pre ih =>
    have first := register_of_accepts (r := r) (t := t) (accepts_of_ok (accepted t (by simp)))
    have step : r.registerAll (t :: (pre ++ rest)) = (r.put (Keyed.keyOf t) t).registerAll (pre ++ rest) := by
      simp only [registerAll, registerType, first]
    rw [List.cons_append, step, ih _ fun t' member => accepted t' (List.mem_cons_of_mem t member)]
    show _ = (run (Call.apply r (.registerType t)) (pre.map .registerType)).registerAll rest
    simp only [Call.apply, registerType, first, Except.toOption, Option.getD_some]

theorem registerAll_stops (r : Registry τ) {pre : List τ} {t : τ} (post : List τ) {f : Fault}
    (accepted : ∀ t' ∈ pre, Keyed.checkKey τ (Keyed.keyOf t') = .ok ())
    (refused : Keyed.checkKey τ (Keyed.keyOf t) = .error f) :
    r.registerAll (pre ++ t :: post) = (run r (pre.map .registerType), some f) := by
  rw [registerAll_append_of_accepted r _ accepted]
  simp [registerAll, registerType, register_of_refused refused]

theorem registerAll_of_accepted (r : Registry τ) {ts : List τ}
    (accepted : ∀ t ∈ ts, Keyed.checkKey τ (Keyed.keyOf t) = .ok ()) :
    r.registerAll ts = (run r (ts.map .registerType), none) := by
  have whole := registerAll_append_of_accepted r [] accepted
  rw [List.append_nil] at whole
  exact whole

/-- A list is accepted throughout, or it has a first refused type. -/
theorem accepted_or_first_refusal (ts : List τ) :
    (∀ t ∈ ts, Keyed.checkKey τ (Keyed.keyOf t) = .ok ()) ∨
      ∃ pre t post f, ts = pre ++ t :: post ∧
        (∀ t' ∈ pre, Keyed.checkKey τ (Keyed.keyOf t') = .ok ()) ∧
        Keyed.checkKey τ (Keyed.keyOf t) = .error f := by
  induction ts with
  | nil => simp
  | cons t ts ih =>
    cases checked : Keyed.checkKey τ (Keyed.keyOf t) with
    | error f => exact .inr ⟨[], t, ts, f, rfl, by simp, checked⟩
    | ok u =>
      rcases ih with all | ⟨pre, t', post, f, split, before, refused⟩
      · refine .inl fun t' member => ?_
        rcases List.mem_cons.1 member with rfl | member
        · exact checked
        · exact all t' member
      · refine .inr ⟨t :: pre, t', post, f, by simp [split], ?_, refused⟩
        simpa [checked] using before

theorem mem_registrations_registerType {ts : List τ} {e : Value × τ}
    (member : e ∈ registrations (ts.map .registerType)) : ∃ t ∈ ts, e = (Keyed.keyOf t, t) := by
  simp only [registrations, List.flatMap_map, List.mem_flatMap, Call.registrations] at member
  obtain ⟨t, listed, registered⟩ := member
  split at registered
  · exact ⟨t, listed, List.mem_singleton.1 registered⟩
  · simp at registered

theorem run_registerType_twice (r : Registry τ) (ts : List τ)
    (self : ∀ t ∈ ts, Value.sameValueZero (Keyed.keyOf t) (Keyed.keyOf t) = true) :
    run (run r (ts.map .registerType)) (ts.map .registerType) = run r (ts.map .registerType) := by
  rw [run_eq_replay r, run_eq_replay]
  refine replay_replay r _ fun e member => ?_
  obtain ⟨t, listed, rfl⟩ := mem_registrations_registerType member
  exact self t listed

theorem registerAll_twice (r : Registry τ) (ts : List τ)
    (self : ∀ t ∈ ts, Value.sameValueZero (Keyed.keyOf t) (Keyed.keyOf t) = true) :
    (r.registerAll ts).1.registerAll ts = r.registerAll ts := by
  rcases accepted_or_first_refusal ts with all | ⟨pre, t, post, f, rfl, before, refused⟩
  · rw [registerAll_of_accepted r all, registerAll_of_accepted _ all, run_registerType_twice r ts self]
  · have selfPre : ∀ t' ∈ pre, Value.sameValueZero (Keyed.keyOf t') (Keyed.keyOf t') = true :=
      fun t' member => self t' (List.mem_append_left _ member)
    rw [registerAll_stops r post before refused, registerAll_stops _ post before refused,
      run_registerType_twice r pre selfPre]

theorem find?_run_empty (cs : List (Call τ)) (k : Value) :
    (run empty cs).find? k = lastUnder (registrations cs) k := by
  rw [run_eq_replay, find?_replay, find?_empty, Option.or_none]

theorem registryWith_eq_run {builtins extra : List τ} {r : Registry τ}
    (built : registryWith builtins extra = .ok r) :
    r = run empty [.registerAll builtins, .registerAll extra] := by
  unfold registryWith at built
  rcases second : (Registry.empty.registerAll builtins).1.registerAll extra with ⟨r', _ | f⟩ <;>
    simp only [second] at built
  · cases built
    simp [run, Call.apply, second]
  · cases built

/-- A registry after any run of calls answers from the registrations the run accepted: the type
under a key is the last one registered under an equal key (numbers equal as numbers, `-0` and
`0` alike), else the key is unknown, which names the key whenever it has a text; a key is present
exactly when it resolves; the keys are the registered ones in order of first registration, each
once, zeros normalised, and there are as many as the size says. A refused key changes nothing;
registering a list registers its types one by one up to the first refusal, keeping those before
it; registering a list twice, when each of its keys equals itself, is registering it once; and
the registries the codecs are set up with are such runs. -/
theorem registry_follows_its_registrations (cs : List (Call τ)) :
    (∀ k t, (run empty cs).resolve k = .ok t ↔ lastUnder (registrations cs) k = some t) ∧
    (∀ k, lastUnder (registrations cs) k = none →
      (run empty cs).resolve k = .error (Fault.unknown k)) ∧
    (∀ k s, k.toText = .ok s → lastUnder (registrations cs) k = none →
      (run empty cs).resolve k = .error (.unknownType k)) ∧
    (∀ k, (run empty cs).has k = true ↔ ∃ t, (run empty cs).resolve k = .ok t) ∧
    (run empty cs).keys =
      (firstOccurrences [] ((registrations cs).map (·.1))).map Value.normalizeZero ∧
    (run empty cs).size = (run empty cs).keys.length ∧
    (∀ (r : Registry τ) k t f, Keyed.checkKey τ k = .error f → r.register k t = .error f) ∧
    (∀ (r : Registry τ) pre t post f, (∀ t' ∈ pre, Keyed.checkKey τ (Keyed.keyOf t') = .ok ()) →
      Keyed.checkKey τ (Keyed.keyOf t) = .error f →
      r.registerAll (pre ++ t :: post) = (run r (pre.map .registerType), some f)) ∧
    (∀ (r : Registry τ) ts, (∀ t ∈ ts, Keyed.checkKey τ (Keyed.keyOf t) = .ok ()) →
      r.registerAll ts = (run r (ts.map .registerType), none)) ∧
    (∀ (r : Registry τ) ts,
      (∀ t ∈ ts, Value.sameValueZero (Keyed.keyOf t) (Keyed.keyOf t) = true) →
      (r.registerAll ts).1.registerAll ts = r.registerAll ts) ∧
    (∀ (builtins extra : List τ) r, registryWith builtins extra = .ok r →
      r = run empty [.registerAll builtins, .registerAll extra]) := by
  refine ⟨fun k t => ?_, fun k missing => ?_, fun k s text missing => ?_, fun k => has_iff_resolve _ k,
    ?_, size_eq_length_keys _, fun r k t f refused => register_of_refused refused,
    fun r pre t post f before refused => registerAll_stops r post before refused,
    fun r ts all => registerAll_of_accepted r all, fun r ts self => registerAll_twice r ts self,
    fun builtins extra r built => registryWith_eq_run built⟩
  · rw [resolve_eq_ok_iff, find?_run_empty]
  · rw [← find?_run_empty] at missing
    exact resolve_of_find?_none missing
  · rw [← find?_run_empty] at missing
    rw [resolve_of_find?_none missing, Fault.unknown_of_toText text]
  · rw [run_eq_replay, keys_replay_empty]

end Registry

end PeerMessaging
