import Mathlib.Data.List.Basic
import StubServer.CommandLine.Program
import StubServer.Proofs.Behavior.Compiled

/-!
# Settings with overrides

The settings of a file are checked when it is loaded, and changed by the command line after that.
What the command line may do is checked for itself, with other means, so the question is whether
the settings to run with would still pass the check. Its rules are said one by one in
`Settings.Valid`, and the proof that they hold goes rule by rule:

> The address to listen on is read once more at the end; the polling interval is either the one
> that was checked or an override other than zero; and no override touches anything else that a
> rule is about.

It follows that the addresses that are read later, each when its part of the server is started,
can be read.
-/

namespace StubServer

namespace Settings

/-! ## Valid settings -/

/-- Settings that pass the check. -/
structure Valid (s : Settings) : Prop where
  listen : ∃ address, Net.Address.toListen? s.listener.address = some address
  metrics : s.observability.metricsEnabled = true →
    ∃ address, Net.Address.ofText? s.observability.metricsAddress.toList = some address
  admin : s.admin.enabled = true →
    ∃ address, Net.Address.ofText? s.admin.address.toList = some address
  polling : 0 < s.behaviors.pollMillis
  grace : 0 < s.timeouts.graceSeconds
  logLevel : isLogLevel s.observability.logLevel = true

theorem faultIf_eq_none {condition : Bool} {fault : SettingsFault} :
    faultIf condition fault = none ↔ condition = false := by
  cases condition <;> simp [faultIf]

/-- An address that is checked under a condition. -/
theorem and_isNone_eq_false {isUsed : Bool} {address : Option Net.Address} :
    (isUsed && address.isNone) = false ↔ (isUsed = true → ∃ a, address = some a) := by
  cases isUsed <;> cases address <;> simp

/-- The check finds no fault in valid settings, and some in all others. -/
theorem faults_eq_nil {s : Settings} : s.faults = [] ↔ s.Valid := by
  have hlisten : ∀ address : Option Net.Address,
      address.isNone = false ↔ ∃ a, address = some a := fun address => by
    cases address <;> simp
  unfold faults
  simp only [List.filterMap_eq_nil_iff, List.forall_mem_cons, id, faultIf_eq_none, and_isNone_eq_false,
    hlisten, beq_eq_false_iff_ne, ← Nat.pos_iff_ne_zero, Bool.not_eq_false']
  constructor
  · rintro ⟨hlisten, hmetrics, hadmin, hpolling, hgrace, hlevel, -⟩
    exact ⟨hlisten, hmetrics, hadmin, hpolling, hgrace, hlevel⟩
  · rintro ⟨hlisten, hmetrics, hadmin, hpolling, hgrace, hlevel⟩
    exact ⟨hlisten, hmetrics, hadmin, hpolling, hgrace, hlevel, List.forall_mem_nil _⟩

theorem valid_default : Valid {} :=
  faults_eq_nil.mp (by decide +kernel)

/-- A file is loaded only if its settings are valid. -/
theorem valid_of_load {disk : Disk} {path : String} {s : Settings} (h : load disk path = .ok s) :
    s.Valid := by
  unfold load ofText at h
  split at h
  case h_1 => cases h
  case h_2 =>
    split at h
    case h_1 => cases h
    case h_2 loaded _ =>
      split at h
      case isTrue hempty =>
        obtain rfl := Except.ok.inj h
        exact faults_eq_nil.mp (List.isEmpty_iff.mp hempty)
      case isFalse => cases h

/-! ## Overrides -/

/-- The settings that the overrides are for: those of the file, or the default ones. -/
def Loaded (disk : Disk) (file : Option String) (s : Settings) : Prop :=
  match file with
  | some path => load disk path = .ok s
  | none => s = {}

/-- The settings with the value of each override in its place. -/
def overridden (overrides : Overrides) (s : Settings) : Settings :=
  { s with
    listener := { s.listener with address := overrides.listen.getD s.listener.address }
    behaviors :=
      { s.behaviors with
        pollMillis := overrides.pollMillis.getD s.behaviors.pollMillis
        keepDuplicates := !overrides.mergeDuplicates && s.behaviors.keepDuplicates } }

section Overrides

variable {disk : Disk} {file : Option String} {overrides : Overrides} {s s' : Settings}
  {address : Net.Address}

theorem Loaded.valid (h : Loaded disk file s) : s.Valid := by
  cases file with
  | none =>
    obtain rfl : s = {} := h
    exact valid_default
  | some path => exact valid_of_load h

theorem withListen_eq (listen : Option String) (s : Settings) : s.withListen listen =
    { s with listener := { s.listener with address := listen.getD s.listener.address } } := by
  cases listen <;> rfl

theorem withPolling_eq_ok {pollMillis : Option Nat} : s.withPolling pollMillis = .ok s' ↔
    pollMillis ≠ some 0 ∧ s' = { s with behaviors := { s.behaviors with
      pollMillis := pollMillis.getD s.behaviors.pollMillis } } := by
  rcases pollMillis with _ | _ | n
  · exact ⟨fun h => ⟨nofun, (Except.ok.inj h).symm⟩, fun h => congrArg Except.ok h.2.symm⟩
  · exact ⟨nofun, fun h => absurd rfl h.1⟩
  · exact ⟨fun h => ⟨nofun, (Except.ok.inj h).symm⟩, fun h => congrArg Except.ok h.2.symm⟩

theorem withMerging_eq (mergeDuplicates : Bool) (s : Settings) : s.withMerging mergeDuplicates =
    { s with behaviors := { s.behaviors with
      keepDuplicates := !mergeDuplicates && s.behaviors.keepDuplicates } } := by
  cases mergeDuplicates <;> rfl

/-- All that the overrides can do. -/
theorem override_eq_ok : s.override overrides = .ok (s', address) ↔
    overrides.pollMillis ≠ some 0 ∧ s' = s.overridden overrides ∧
      Net.Address.toListen? s'.listener.address = some address := by
  have hfields : withMerging overrides.mergeDuplicates
      { s.withListen overrides.listen with behaviors := { s.behaviors with
        pollMillis := overrides.pollMillis.getD s.behaviors.pollMillis } } =
      s.overridden overrides := by
    rw [withMerging_eq, withListen_eq]
    rfl
  have hkept : (s.withListen overrides.listen).behaviors = s.behaviors := by
    rw [withListen_eq]
  unfold override
  simp only [bind_eq_ok, withPolling_eq_ok, hkept]
  constructor
  · rintro ⟨_, ⟨hpolling, rfl⟩, h⟩
    rw [hfields] at h
    split at h
    next address' haddress =>
      obtain ⟨rfl, rfl⟩ := Prod.mk.inj (Except.ok.inj h)
      exact ⟨hpolling, rfl, haddress⟩
    next => cases h
  · rintro ⟨hpolling, rfl, haddress⟩
    refine ⟨_, ⟨hpolling, rfl⟩, ?_⟩
    rw [hfields, haddress]

theorem resolve_eq_ok : resolve disk file overrides = .ok (s', address) ↔
    ∃ s, Loaded disk file s ∧ s.override overrides = .ok (s', address) := by
  cases file with
  | none =>
    constructor
    · intro h
      exact ⟨{}, rfl, h⟩
    · rintro ⟨_, rfl, h⟩
      exact h
  | some path => exact bind_eq_ok

/-- No rule is broken by an override: an address that can be listened on takes the place of one, and
a positive interval that of another. -/
theorem Valid.overridden (h : s.Valid) (hpolling : overrides.pollMillis ≠ some 0)
    (haddress : Net.Address.toListen? (s.overridden overrides).listener.address = some address) :
    (s.overridden overrides).Valid where
  listen := ⟨address, haddress⟩
  metrics := h.metrics
  admin := h.admin
  polling := by
    show 0 < overrides.pollMillis.getD s.behaviors.pollMillis
    -- zero is refused as an override, and so it is as a value of the file
    rcases hmillis : overrides.pollMillis with _ | _ | n
    · exact h.polling
    · exact absurd hmillis hpolling
    · exact Nat.succ_pos n
  grace := h.grace
  logLevel := h.logLevel

end Overrides

/-- What is known of settings that were put together, with the address to listen on. -/
structure Resolved (disk : Disk) (file : Option String) (overrides : Overrides) (s : Settings)
    (address : Net.Address) : Prop where
  /-- They pass the check that a file has to pass. -/
  faultless : s.faults = []
  /-- The address is that of the settings. -/
  listen : Net.Address.toListen? s.listener.address = some address
  /-- Each override has its value, and everything else that of the file or the default one. -/
  fields : ∃ loaded, Loaded disk file loaded ∧ s = loaded.overridden overrides
  /-- The address for the metrics can be read if it is needed, -/
  metrics : s.observability.metricsEnabled = true →
    ∃ a, Net.Address.ofText? s.observability.metricsAddress.toList = some a
  /-- and so can that for the status pages: their listener is started as far as the address can be
  bound. -/
  admin : s.admin.enabled = true → ∃ a, Net.Address.ofText? s.admin.address.toList = some a ∧
    ∀ host : CommandLine.Host, host.listenForAdmin s.admin = host.listen a
  polling : 0 < s.behaviors.pollMillis
  grace : 0 < s.timeouts.graceSeconds

/-- How overrides are taken in. -/
structure OverrideLaw (disk : Disk) (file : Option String) (overrides : Overrides) : Prop where
  valid : ∀ {s address}, resolve disk file overrides = .ok (s, address) →
    Resolved disk file overrides s address
  /-- Nothing is refused but a file that cannot be loaded, an interval of zero and an address on
  which one cannot listen. -/
  complete : ∀ {loaded address}, Loaded disk file loaded → overrides.pollMillis ≠ some 0 →
    Net.Address.toListen? (loaded.overridden overrides).listener.address = some address →
      resolve disk file overrides = .ok (loaded.overridden overrides, address)

/-- **Overrides do not get around the check.** Whatever the file and the overrides, the settings
that come of them would pass the check of a file; they have the values of the overrides where
there are any, and of the file elsewhere; and no address in them that is read later, nor an
interval, can stop the server. -/
theorem resolve_overridden (disk : Disk) (file : Option String) (overrides : Overrides) :
    OverrideLaw disk file overrides := by
  constructor
  · intro s address h
    obtain ⟨loaded, hloaded, hoverride⟩ := resolve_eq_ok.mp h
    obtain ⟨hpolling, rfl, haddress⟩ := override_eq_ok.mp hoverride
    have hvalid := hloaded.valid.overridden hpolling haddress
    refine ⟨faults_eq_nil.mpr hvalid, haddress, ⟨loaded, hloaded, rfl⟩, hvalid.metrics,
      fun henabled => ?_, hvalid.polling, hvalid.grace⟩
    obtain ⟨a, ha⟩ := hvalid.admin henabled
    refine ⟨a, ha, fun host => ?_⟩
    unfold CommandLine.Host.listenForAdmin
    rw [if_pos henabled, ha]
  · intro loaded address hloaded hpolling haddress
    exact resolve_eq_ok.mpr ⟨loaded, hloaded, override_eq_ok.mpr ⟨hpolling, rfl, haddress⟩⟩

/-- A disk with one file of settings, which switches both the status pages and the metrics on. -/
def configured : Disk where
  nodes := [(["server.toml"], .file (Text.Utf8.encode
    "[admin]\nenabled = true\n[observability]\nmetrics_enabled = true\n".toList))]

/-- The file is there, and the command line overrides its address. -/
theorem resolve_overridden_configured : Resolved configured (some "server.toml")
    { listen := some "localhost:80", pollMillis := some 5, mergeDuplicates := true }
    { listener := ⟨"localhost:80"⟩
      behaviors := ⟨5, false⟩
      observability := { metricsEnabled := true }
      admin := { enabled := true } } ⟨.v4 127 0 0 1, 0, 80⟩ :=
  (resolve_overridden _ _ _).valid (by decide +kernel)

end Settings

end StubServer
