import PeerMessaging.Discovery.Config
/-!
Resolving discovery settings. The ten checks, their order, what each asks of its field and what a
failing one reports are set out as data (`Check`); resolving runs them, in that order, over the
settings with defaults filled in. Main statement: resolving succeeds exactly when every check
passes, and then answers the filled-in settings; otherwise it reports the first check that fails.

A refusal shows the offending value as text. A value that has no text (a symbol, or an object
whose conversion to a primitive fails) is reported as the error of that conversion instead, and
the marker's refusal shows no value at all.
-/

namespace PeerMessaging.DiscoveryConfig

/-- The checks settings go through, in the order they run. -/
inductive Check where
  | udpPort | tcpPort | broadcastIntervalMs | connectTimeoutMs | pollIntervalMs | timeoutMs
  | broadcastAddress | bindAddress | localAddress | marker
  deriving DecidableEq

namespace Check

def order : List Check :=
  [udpPort, tcpPort, broadcastIntervalMs, connectTimeoutMs, pollIntervalMs, timeoutMs,
    broadcastAddress, bindAddress, localAddress, marker]

theorem mem_order (k : Check) : k ∈ order := by
  cases k <;> simp [order]

/-- The field's name, as a refusal words it. -/
def name : Check → String
  | udpPort => "udpPort"
  | tcpPort => "tcpPort"
  | broadcastIntervalMs => "broadcastIntervalMs"
  | connectTimeoutMs => "connectTimeoutMs"
  | pollIntervalMs => "pollIntervalMs"
  | timeoutMs => "timeoutMs"
  | broadcastAddress => "broadcastAddress"
  | bindAddress => "bindAddress"
  | localAddress => "localAddress"
  | marker => "marker"

/-- The field a check reads. -/
def field (r : DiscoveryConfig) : Check → Value
  | udpPort => r.udpPort
  | tcpPort => r.tcpPort
  | broadcastIntervalMs => r.broadcastIntervalMs
  | connectTimeoutMs => r.connectTimeoutMs
  | pollIntervalMs => r.pollIntervalMs
  | timeoutMs => r.timeoutMs
  | broadcastAddress => r.broadcastAddress
  | bindAddress => r.bindAddress
  | localAddress => r.localAddress
  | marker => r.marker

/-- A number that is a whole port number, 1 to 65535. -/
def IsPort (v : Value) : Prop :=
  ∃ x, v = .number x ∧ Number.isInteger x = true ∧ (1 : Float) ≤ x ∧ x ≤ 65535

def IsPositive (v : Value) : Prop := ∃ x, v = .number x ∧ x.isFinite = true ∧ (0 : Float) < x

def IsDuration (v : Value) : Prop := ∃ x, v = .number x ∧ x.isFinite = true ∧ (0 : Float) ≤ x

def IsIpv4 (v : Value) : Prop := ∃ t, v.toText = .ok t ∧ t.isIpv4 = true

/-- What a check asks of its field. The local address may be left out; `null` is not left out. -/
def Passes : Check → Value → Prop
  | udpPort, v | tcpPort, v => IsPort v
  | broadcastIntervalMs, v | connectTimeoutMs, v | pollIntervalMs, v => IsPositive v
  | timeoutMs, v => IsDuration v
  | broadcastAddress, v | bindAddress, v => IsIpv4 v
  | localAddress, v => v = .undefined ∨ IsIpv4 v
  | marker, v => ∃ n, v.lengthProperty = .ok n ∧ n.isZero = false

def issue (k : Check) (t : Text) : ConfigIssue :=
  match k with
  | udpPort | tcpPort => .notPort k.name t
  | broadcastIntervalMs | connectTimeoutMs | pollIntervalMs => .notPositive k.name t
  | timeoutMs => .negativeTimeout t
  | broadcastAddress | bindAddress | localAddress => .notIpv4 k.name t
  | marker => .emptyMarker

def refusal (k : Check) (v : Value) : ConfigError :=
  match k, v.toText with
  | marker, _ => .invalid .emptyMarker
  | _, .ok t => .invalid (k.issue t)
  | _, .error e => .host e

@[simp] theorem refusal_of_text {k : Check} (hk : k ≠ marker) {v : Value} {t : Text}
    (text : v.toText = .ok t) : k.refusal v = .invalid (k.issue t) := by
  cases k <;> simp_all [refusal]

@[simp] theorem refusal_of_no_text {k : Check} (hk : k ≠ marker) {v : Value} {e : HostError}
    (noText : v.toText = .error e) : k.refusal v = .host e := by
  cases k <;> simp_all [refusal]

/-- A check as resolving runs it. -/
def run (r : DiscoveryConfig) : Check → Except ConfigError Unit
  | udpPort => requirePort "udpPort" r.udpPort
  | tcpPort => requirePort "tcpPort" r.tcpPort
  | broadcastIntervalMs => requirePositive "broadcastIntervalMs" r.broadcastIntervalMs
  | connectTimeoutMs => requirePositive "connectTimeoutMs" r.connectTimeoutMs
  | pollIntervalMs => requirePositive "pollIntervalMs" r.pollIntervalMs
  | timeoutMs => requireTimeout r.timeoutMs
  | broadcastAddress => requireIpv4 "broadcastAddress" r.broadcastAddress
  | bindAddress => requireIpv4 "bindAddress" r.bindAddress
  | localAddress =>
    match r.localAddress with
    | .undefined => pure ()
    | v => requireIpv4 "localAddress" v
  | marker => requireMarker r.marker

end Check

theorem resolve_eq_forM (c : DiscoveryConfig) :
    c.resolve = forM Check.order (Check.run c.withDefaults) >>= fun _ => pure c.withDefaults := by
  unfold resolve
  simp only [Check.order, List.forM_cons, List.forM_nil, Check.run, bind_assoc, pure_bind]
  -- both sides wait on the local address the same way
  cases c.withDefaults.localAddress <;> rfl

/-! ### Each check on its own -/

theorem refuse_ne_ok (v : Value) (issue : Text → ConfigIssue) : refuse v issue ≠ .ok () := by
  unfold refuse
  split <;> simp

theorem refuse_eq_refusal (k : Check) (hk : k ≠ .marker) (v : Value) :
    refuse v k.issue = .error (k.refusal v) := by
  unfold refuse
  split
  case h_1 t text => rw [Check.refusal_of_text hk text]
  case h_2 e noText => rw [Check.refusal_of_no_text hk noText]

theorem requirePort_eq_ok (f : String) (v : Value) : requirePort f v = .ok () ↔ Check.IsPort v := by
  unfold requirePort Check.IsPort
  cases v <;> simp [refuse_ne_ok]

theorem requirePort_of_not (f : String) {v : Value} (h : ¬ Check.IsPort v) :
    requirePort f v = refuse v (.notPort f) := by
  unfold requirePort
  cases v <;> simp_all [Check.IsPort]

theorem requirePositive_eq_ok (f : String) (v : Value) :
    requirePositive f v = .ok () ↔ Check.IsPositive v := by
  unfold requirePositive Check.IsPositive
  cases v <;> simp [refuse_ne_ok]

theorem requirePositive_of_not (f : String) {v : Value} (h : ¬ Check.IsPositive v) :
    requirePositive f v = refuse v (.notPositive f) := by
  unfold requirePositive
  cases v <;> simp_all [Check.IsPositive]

theorem requireTimeout_eq_ok (v : Value) : requireTimeout v = .ok () ↔ Check.IsDuration v := by
  unfold requireTimeout Check.IsDuration
  cases v <;> simp [refuse_ne_ok]

theorem requireTimeout_of_not {v : Value} (h : ¬ Check.IsDuration v) :
    requireTimeout v = refuse v .negativeTimeout := by
  unfold requireTimeout
  cases v <;> simp_all [Check.IsDuration]

theorem requireIpv4_eq_ok (f : String) (v : Value) : requireIpv4 f v = .ok () ↔ Check.IsIpv4 v := by
  unfold requireIpv4 Check.IsIpv4
  split
  case h_1 e noText => simp [noText]
  case h_2 t text => by_cases quad : t.isIpv4 <;> simp [text, quad, refuse_ne_ok]

theorem requireIpv4_of_not (f : String) {v : Value} (h : ¬ Check.IsIpv4 v) :
    requireIpv4 f v = refuse v (.notIpv4 f) := by
  unfold requireIpv4
  split
  case h_1 e noText => simp [refuse, noText]
  case h_2 t text =>
    have : t.isIpv4 = false := by simpa [Check.IsIpv4, text] using h
    simp [this]

theorem lengthProperty_ok {v : Value} (present : v.isNullish = false) :
    ∃ n, v.lengthProperty = .ok n := by
  cases v <;> simp_all [Value.isNullish, Value.lengthProperty]

theorem requireMarker_eq_ok (v : Value) :
    requireMarker v = .ok () ↔ ∃ n, v.lengthProperty = .ok n ∧ n.isZero = false := by
  unfold requireMarker
  split
  case h_1 e noLength => simp [noLength]
  case h_2 n length => cases zero : n.isZero <;> simp [length, zero]

theorem requireMarker_of_not {v : Value} (present : v.isNullish = false)
    (h : ¬ ∃ n, v.lengthProperty = .ok n ∧ n.isZero = false) :
    requireMarker v = .error (.invalid .emptyMarker) := by
  obtain ⟨n, length⟩ := lengthProperty_ok present
  have zero : n.isZero = true := by simpa [length] using h
  simp [requireMarker, length, zero]

/-! ### The checks in order -/

namespace Check

/-- A check passes exactly when its field is as the check asks. -/
theorem run_eq_ok_iff (r : DiscoveryConfig) (k : Check) :
    k.run r = .ok () ↔ k.Passes (k.field r) := by
  cases k
  case udpPort | tcpPort => exact requirePort_eq_ok _ _
  case broadcastIntervalMs | connectTimeoutMs | pollIntervalMs => exact requirePositive_eq_ok _ _
  case timeoutMs => exact requireTimeout_eq_ok _
  case broadcastAddress | bindAddress => exact requireIpv4_eq_ok _ _
  case marker => exact requireMarker_eq_ok _
  case localAddress =>
    simp only [run, field, Passes]
    split
    case h_1 absent => exact ⟨fun _ => .inl absent, fun _ => rfl⟩
    case h_2 given =>
      rw [requireIpv4_eq_ok]
      exact ⟨.inr, fun passes => passes.resolve_left given⟩

/-- A failing check reports its refusal, provided the marker has a length to read. -/
theorem run_of_fails (r : DiscoveryConfig) (k : Check) (marked : r.marker.isNullish = false)
    (fails : ¬ k.Passes (k.field r)) : k.run r = .error (k.refusal (k.field r)) := by
  cases k <;> simp only [run, field, Passes] at fails ⊢
  case udpPort =>
    rw [requirePort_of_not _ fails]
    exact refuse_eq_refusal udpPort (by decide) _
  case tcpPort =>
    rw [requirePort_of_not _ fails]
    exact refuse_eq_refusal tcpPort (by decide) _
  case broadcastIntervalMs =>
    rw [requirePositive_of_not _ fails]
    exact refuse_eq_refusal broadcastIntervalMs (by decide) _
  case connectTimeoutMs =>
    rw [requirePositive_of_not _ fails]
    exact refuse_eq_refusal connectTimeoutMs (by decide) _
  case pollIntervalMs =>
    rw [requirePositive_of_not _ fails]
    exact refuse_eq_refusal pollIntervalMs (by decide) _
  case timeoutMs =>
    rw [requireTimeout_of_not fails]
    exact refuse_eq_refusal timeoutMs (by decide) _
  case broadcastAddress =>
    rw [requireIpv4_of_not _ fails]
    exact refuse_eq_refusal broadcastAddress (by decide) _
  case bindAddress =>
    rw [requireIpv4_of_not _ fails]
    exact refuse_eq_refusal bindAddress (by decide) _
  case localAddress =>
    -- a local address that is given is checked like the other addresses
    have given : r.localAddress ≠ .undefined := fun absent => fails (.inl absent)
    have notQuad : ¬ IsIpv4 r.localAddress := fun quad => fails (.inr quad)
    split
    case h_1 absent => exact absurd absent given
    case h_2 =>
      rw [requireIpv4_of_not _ notQuad]
      exact refuse_eq_refusal localAddress (by decide) _
  case marker =>
    rw [requireMarker_of_not marked fails]
    rfl

end Check

theorem forM_eq_ok_iff {ε α : Type} (l : List α) (f : α → Except ε Unit) :
    forM l f = .ok () ↔ ∀ a ∈ l, f a = .ok () := by
  induction l with
  | nil => simp; rfl
  | cons a l ih =>
    rw [List.forM_cons]
    cases step : f a
    case error e => simp [step, bind, Except.bind]
    case ok u => simp [step, bind, Except.bind, ih]

theorem forM_of_first_error {ε α : Type} (pre post : List α) (a : α) (f : α → Except ε Unit)
    (e : ε) (passed : ∀ b ∈ pre, f b = .ok ()) (failed : f a = .error e) :
    forM (pre ++ a :: post) f = .error e := by
  rw [List.forM_append, (forM_eq_ok_iff pre f).mpr passed, List.forM_cons, failed]
  rfl

theorem forM_run_eq_ok_iff (r : DiscoveryConfig) :
    forM Check.order (Check.run r) = .ok () ↔ ∀ k : Check, k.Passes (k.field r) := by
  rw [forM_eq_ok_iff]
  exact ⟨fun ran k => (Check.run_eq_ok_iff r k).mp (ran k (Check.mem_order k)),
    fun passes k _ => (Check.run_eq_ok_iff r k).mpr (passes k)⟩

theorem marker_withDefaults (c : DiscoveryConfig) : c.withDefaults.marker.isNullish = false := by
  simp only [withDefaults, Value.orElse]
  split <;> simp_all [defaults, Value.str, Value.isNullish]

theorem defaults_pass (k : Check) : k.Passes (k.field defaults) := by
  cases k
  case udpPort | tcpPort => exact ⟨_, rfl, by decide, by decide, by decide⟩
  case broadcastIntervalMs | connectTimeoutMs | pollIntervalMs | timeoutMs =>
    exact ⟨_, rfl, by decide, by decide⟩
  case broadcastAddress =>
    exact ⟨Text.ofString "255.255.255.255", by simp [Check.field, defaults, Value.str, Value.toText],
      by decide⟩
  case bindAddress =>
    exact ⟨Text.ofString "0.0.0.0", by simp [Check.field, defaults, Value.str, Value.toText],
      by decide⟩
  case localAddress => exact .inl rfl
  case marker => exact ⟨_, rfl, by decide⟩

theorem resolve_blank : blank.resolve = .ok defaults := by
  -- nothing given, so every field is its default
  have filled : blank.withDefaults = defaults := rfl
  rw [resolve_eq_forM, filled, (forM_run_eq_ok_iff _).mpr defaults_pass]
  rfl

theorem resolve_reports_first_failed_check (c : DiscoveryConfig) :
    (∀ r, c.resolve = .ok r ↔
      (∀ k : Check, k.Passes (k.field c.withDefaults)) ∧ r = c.withDefaults) ∧
    (∀ pre (k : Check) post, Check.order = pre ++ k :: post →
      (∀ j ∈ pre, j.Passes (j.field c.withDefaults)) → ¬ k.Passes (k.field c.withDefaults) →
      c.resolve = .error (k.refusal (k.field c.withDefaults))) ∧
    (∀ k : Check, k ≠ .localAddress →
      k.field c.withDefaults = (k.field c).orElse (k.field defaults)) ∧
    c.withDefaults.localAddress = c.localAddress ∧
    c.withDefaults.allowLoopback = c.allowLoopback.orElse (.bool false) ∧
    c.withDefaults.onConnect = c.onConnect := by
  refine ⟨fun r => ?_, fun pre k post split passed fails => ?_, fun k other => ?_, rfl, rfl, rfl⟩
  · rw [resolve_eq_forM, ← forM_run_eq_ok_iff]
    cases forM Check.order (Check.run c.withDefaults)
    case error e => simp [bind, Except.bind]
    case ok u => simp [bind, Except.bind, pure, Except.pure, eq_comm]
  · rw [resolve_eq_forM, split, forM_of_first_error pre post k _ _
      (fun j mem => (Check.run_eq_ok_iff _ j).mpr (passed j mem))
      (Check.run_of_fails _ k (marker_withDefaults c) fails)]
    rfl
  · cases k <;> first | rfl | exact absurd rfl other

/-- A port given as a symbol fails its check, and its refusal cannot word it: the answer is the
error of converting a symbol to text, not a refusal that names the port. -/
theorem symbol_port_reported_as_conversion_error :
    ({ blank with udpPort := .symbol (Text.ofString "x") } : DiscoveryConfig).resolve =
      .error (.host .symbolToText) := by
  have fails : Check.run
      ({ blank with udpPort := .symbol (Text.ofString "x") } : DiscoveryConfig).withDefaults
      .udpPort = .error (.host .symbolToText) := by
    simp [Check.run, requirePort, refuse, withDefaults, Value.orElse, Value.isNullish, Value.toText]
  rw [resolve_eq_forM, show Check.order = [] ++ .udpPort :: Check.order.tail from rfl,
    forM_of_first_error [] _ _ _ _ (by simp) fails]
  rfl

end PeerMessaging.DiscoveryConfig
