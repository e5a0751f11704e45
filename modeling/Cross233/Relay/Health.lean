import Cross233.Server.Isolation

namespace Cross233.Relay

open Cross233.Protocol Cross233.Server

structure HealthCheckConfig where
  type : String
  interval : UInt32
  timeoutMs : UInt32
  maxFailed : UInt32
  path : Option String
  headers : HashMap String String

def HealthCheckConfig.fromService (svc : Service) : Option HealthCheckConfig := do
  let hcType ← svc.healthCheck
  if hcType = "" then none
  else
    some {
      type := hcType
      interval := if 0 < svc.healthInterval then svc.healthInterval else 10
      timeoutMs := if 0 < svc.healthTimeout then svc.healthTimeout else 3
      maxFailed := if 0 < svc.healthMaxFailed then svc.healthMaxFailed else 1
      path := svc.healthPath
      headers := svc.healthHeaders }

namespace HealthCheckConfig

def probed (config : HealthCheckConfig) (failCount : UInt32) (healthy : Bool) :
    UInt32 × Option Bool :=
  let failCount := if healthy then 0 else failCount + 1
  (failCount, if healthy || config.maxFailed ≤ failCount then some healthy else none)

def runHealthCheck (config : HealthCheckConfig) (serviceName : String) :
    UInt32 → List Bool → List Message
  | _, [] => []
  | failCount, healthy :: probes =>
    let (failCount, report) := config.probed failCount healthy
    report.toList.map (Message.newHealth serviceName) ++
      config.runHealthCheck serviceName failCount probes

def failures (config : HealthCheckConfig) (failCount : UInt32) (probes : List Bool) : UInt32 :=
  probes.foldl (fun failCount healthy => (config.probed failCount healthy).1) failCount

theorem runHealthCheck_append (config : HealthCheckConfig) (serviceName : String)
    (failCount : UInt32) (probes later : List Bool) :
    config.runHealthCheck serviceName failCount (probes ++ later) =
      config.runHealthCheck serviceName failCount probes ++
        config.runHealthCheck serviceName (config.failures failCount probes) later := by
  induction probes generalizing failCount with
  | nil => rfl
  | cons healthy probes ih =>
    simp only [List.cons_append, runHealthCheck, ih, List.append_assoc]
    rfl

end HealthCheckConfig

def handleMessages (tx : Channel) (order : MapOrder) (s : RelayState) (messages : List Message) :
    RelayState :=
  messages.foldl (fun s msg => s.handleMessage tx msg order) s

def trailing (probes : List Bool) : Nat := (probes.reverse.takeWhile (· = false)).length

theorem trailing_true (probes : List Bool) : trailing (probes ++ [true]) = 0 := by
  simp [trailing]

theorem trailing_false (probes : List Bool) :
    trailing (probes ++ [false]) = trailing probes + 1 := by
  simp [trailing]

theorem replicate_suffix_iff (k : Nat) (probes : List Bool) :
    List.replicate k false <:+ probes ↔ k ≤ trailing probes := by
  rw [← List.reverse_prefix, List.reverse_replicate, trailing]
  generalize probes.reverse = recent
  induction k generalizing recent with
  | zero => simp
  | succ k ih =>
    cases recent with
    | nil => simp [List.replicate_succ]
    | cons healthy recent =>
      cases healthy with
      | false => simp [List.replicate_succ, ih]
      | true => simp [List.replicate_succ]

theorem registered_reportHealth (s : RelayState) (name : String) (healthy : Bool) :
    (s.reportHealth name healthy).server = s.server := by
  unfold RelayState.reportHealth
  split
  · rfl
  · rfl

namespace HealthCheckConfig

theorem failures_eq (config : HealthCheckConfig) (probes : List Bool) :
    config.failures 0 probes = UInt32.ofNat (trailing probes) := by
  induction probes using List.reverseRecOn with
  | nil => rfl
  | append_singleton probes healthy ih =>
    have hlast : config.failures 0 (probes ++ [healthy]) =
        (config.probed (config.failures 0 probes) healthy).1 := by
      simp [failures]
    rw [hlast, ih, probed]
    cases healthy with
    | true => simp [trailing_true]
    | false => simp [trailing_false]

theorem maxFailed_eq {svc : Service} {config : HealthCheckConfig}
    (h : fromService svc = some config) :
    config.maxFailed.toNat = max svc.healthMaxFailed.toNat 1 := by
  obtain ⟨hcType, -, h⟩ := Option.bind_eq_some_iff.mp h
  split at h
  · cases h
  · cases h
    simp only
    split
    · next hpos =>
      have hpos : 0 < svc.healthMaxFailed.toNat := UInt32.lt_iff_toNat_lt.mp hpos
      omega
    · next hzero =>
      have hzero : ¬0 < svc.healthMaxFailed.toNat := fun hpos =>
        hzero (UInt32.lt_iff_toNat_lt.mpr hpos)
      have hone : (1 : UInt32).toNat = 1 := rfl
      omega

-- The count wraps around, yet it passes the bound before it does.
theorem probed_false (config : HealthCheckConfig) (n : Nat) :
    (config.probed (UInt32.ofNat n) false).2 = some false ∧ config.maxFailed.toNat ≤ n + 1 ∨
      (config.probed (UInt32.ofNat n) false).2 = none ∧ n + 1 ≠ config.maxFailed.toNat := by
  have hbound := config.maxFailed.toNat_lt
  have hcount : (UInt32.ofNat n + 1).toNat = (n + 1) % 4294967296 := by
    rw [UInt32.toNat_add, UInt32.toNat_ofNat']
    simp [Nat.add_mod]
  simp only [probed, Bool.false_or, decide_eq_true_eq, Bool.false_eq_true, if_false,
    UInt32.le_iff_toNat_le, hcount]
  have hle : (n + 1) % 4294967296 ≤ n + 1 := Nat.mod_le _ _
  split
  · next hreached => exact .inl ⟨rfl, hreached.trans hle⟩
  · next hbelow =>
    refine .inr ⟨rfl, fun heq => hbelow ?_⟩
    rw [heq, Nat.mod_eq_of_lt hbound]

end HealthCheckConfig

theorem handleMessages_append (tx : Channel) (order : MapOrder) (s : RelayState)
    (messages later : List Message) :
    handleMessages tx order s (messages ++ later) =
      handleMessages tx order (handleMessages tx order s messages) later := List.foldl_append

theorem isHealthy_handleMessages {config : HealthCheckConfig} (hmax : 1 ≤ config.maxFailed.toNat)
    {s : RelayState} {name : String} (hregistered : name ∈ s.server.registry.servicesByName)
    (hhealthy : s.isHealthy name = true) (tx : Channel) (order : MapOrder) (probes : List Bool) :
    (handleMessages tx order s (config.runHealthCheck name 0 probes)).server = s.server ∧
      (handleMessages tx order s (config.runHealthCheck name 0 probes)).isHealthy name =
        decide (trailing probes < config.maxFailed.toNat) := by
  induction probes using List.reverseRecOn with
  | nil => exact ⟨rfl, hhealthy.trans (decide_eq_true hmax).symm⟩
  | append_singleton probes healthy ih =>
    rw [config.runHealthCheck_append, handleMessages_append, config.failures_eq]
    generalize handleMessages tx order s (config.runHealthCheck name 0 probes) = t at ih ⊢
    obtain ⟨hserver, hbefore⟩ := ih
    have hreport (healthy : Bool) : (t.reportHealth name healthy).isHealthy name = healthy := by
      rw [RelayState.isHealthy_reportHealth, if_pos ⟨rfl, hserver ▸ hregistered⟩]
    cases healthy with
    | true =>
      refine ⟨(registered_reportHealth t name true).trans hserver, (hreport true).trans ?_⟩
      rw [trailing_true]
      exact (decide_eq_true hmax).symm
    | false =>
      rw [trailing_false]
      rcases config.probed_false (trailing probes) with ⟨hsent, hreached⟩ | ⟨hsilent, hother⟩
      · simp only [HealthCheckConfig.runHealthCheck, hsent]
        refine ⟨(registered_reportHealth t name false).trans hserver, (hreport false).trans ?_⟩
        exact (decide_eq_false (by omega)).symm
      · simp only [HealthCheckConfig.runHealthCheck, hsilent]
        refine ⟨hserver, hbefore.trans (decide_eq_decide.mpr ?_)⟩
        omega

theorem failure_threshold_respected (svc : Service) (config : HealthCheckConfig)
    (hconfig : HealthCheckConfig.fromService svc = some config) (s : RelayState)
    (hregistered : svc.name ∈ s.server.registry.servicesByName)
    (hhealthy : s.isHealthy svc.name = true) (tx : Channel) (order : MapOrder)
    (probes : List Bool) :
    (handleMessages tx order s (config.runHealthCheck svc.name 0 probes)).isHealthy svc.name =
        false ↔
      List.replicate (max svc.healthMaxFailed.toNat 1) false <:+ probes := by
  have hmax := HealthCheckConfig.maxFailed_eq hconfig
  have hpos : 1 ≤ config.maxFailed.toNat := by omega
  rw [(isHealthy_handleMessages hpos hregistered hhealthy tx order probes).2,
    replicate_suffix_iff, ← hmax, decide_eq_false_iff_not, Nat.not_lt]

def probedService : Service :=
  { name := "web", ty := some "http", healthCheck := some "tcp", healthMaxFailed := 2 }

def probedServer : RelayState :=
  .fresh (ServerState.defaultServer.run.hello "alice" [probedService])

theorem two_failures_mark_unhealthy :
    ∃ config, HealthCheckConfig.fromService probedService = some config ∧
      (handleMessages 0 .identity probedServer
        (config.runHealthCheck "web" 0 [false, true, false, false])).isHealthy "web" = false :=
  ⟨_, rfl, (failure_threshold_respected probedService _ rfl probedServer (by decide +kernel)
    (by decide +kernel) 0 .identity [false, true, false, false]).mpr (by decide)⟩

structure HealthEntry where
  config : Service
  enabled : Bool
  healthy : Bool
  lastHealthCheck : Nat

namespace HealthEntry

def new (config : Service) (now : Nat) : HealthEntry := ⟨config, true, true, now⟩

def reportHealth (entry : HealthEntry) (healthy : Bool) (now : Nat) : HealthEntry :=
  { entry with healthy := healthy, lastHealthCheck := now }

end HealthEntry

def silenceLimit (svc : Service) : Nat :=
  if 0 < svc.healthTimeout then max svc.healthTimeout.toNat 30 else 90

def HealthEntry.monitored (entry : HealthEntry) (now : Nat) : HealthEntry :=
  if entry.enabled = false then entry
  else if entry.config.healthCheck = none then entry
  else if silenceLimit entry.config < now - entry.lastHealthCheck then
    { entry with healthy := false }
  else entry

inductive HealthTask where
  | idle
  | directory
  | probing (config : HealthCheckConfig)

def healthTask (svc : Service) : HealthTask :=
  if svc.effectiveType = "static" then .directory
  else
    match HealthCheckConfig.fromService svc with
    | some config => .probing config
    | none => .idle

-- The first tick of the probing task is awaited before its loop.
def HealthTask.due (task : HealthTask) (now : Nat) : Bool :=
  match task with
  | .idle => false
  | .directory => now % 20 = 0
  | .probing config => 0 < now && now % config.interval.toNat = 0

def HealthTask.report (task : HealthTask) (failCount : UInt32) : UInt32 × Option Bool :=
  match task with
  | .idle => (failCount, none)
  | .directory => (failCount, some true)
  | .probing config => config.probed failCount true

structure HealthRun where
  entry : HealthEntry
  failCount : UInt32

-- The monitor's offset, which of the two comes first within a second, and how the dashboard
-- switches the service.
structure MonitorPlan where
  offset : Nat
  monitorFirst : Nat → Bool
  enabled : Nat → Bool

def MonitorPlan.ticks (plan : MonitorPlan) (now : Nat) : Bool := now % 30 = plan.offset % 30

namespace HealthRun

def probe (run : HealthRun) (now : Nat) : HealthRun :=
  let task := healthTask run.entry.config
  if task.due now then
    let (failCount, report) := task.report run.failCount
    ⟨report.elim run.entry (run.entry.reportHealth · now), failCount⟩
  else run

def monitor (plan : MonitorPlan) (run : HealthRun) (now : Nat) : HealthRun :=
  if plan.ticks now then { run with entry := run.entry.monitored now } else run

def switch (plan : MonitorPlan) (run : HealthRun) (now : Nat) : HealthRun :=
  { run with entry := { run.entry with enabled := plan.enabled now } }

def atMonitor (plan : MonitorPlan) (run : HealthRun) (now : Nat) : HealthRun :=
  let run := run.switch plan now
  (if plan.monitorFirst now then run else run.probe now).monitor plan now

def second (plan : MonitorPlan) (run : HealthRun) (now : Nat) : HealthRun :=
  let monitored := run.atMonitor plan now
  if plan.monitorFirst now then monitored.probe now else monitored

def after (plan : MonitorPlan) (svc : Service) : Nat → HealthRun
  | 0 => ⟨.new svc 0, 0⟩
  | now + 1 => (after plan svc now).second plan now

end HealthRun

def NeverMarked (svc : Service) : Prop :=
  ∀ (plan : MonitorPlan) (now : Nat), plan.ticks now = true →
    ((HealthRun.after plan svc now).atMonitor plan now).entry.healthy = true

structure ReportsEvery (svc : Service) (period : Nat) : Prop where
  pos : 0 < period
  sound : ∀ now, (healthTask svc).due now = true → period ∣ now
  complete : ∀ now, 0 < now → period ∣ now → (healthTask svc).due now = true
  report : ∀ failCount, ((healthTask svc).report failCount).2 = some true

theorem reportsEvery_directory {svc : Service} (h : svc.effectiveType = "static") :
    ReportsEvery svc 20 := by
  have htask : healthTask svc = .directory := if_pos h
  refine ⟨by decide, fun now hdue => ?_, fun now _ hdvd => ?_, fun failCount => ?_⟩
  · rw [htask] at hdue
    exact Nat.dvd_of_mod_eq_zero (of_decide_eq_true hdue)
  · rw [htask]
    exact decide_eq_true (Nat.mod_eq_zero_of_dvd hdvd)
  · rw [htask]
    rfl

theorem interval_pos {svc : Service} {config : HealthCheckConfig}
    (h : HealthCheckConfig.fromService svc = some config) : 0 < config.interval.toNat := by
  obtain ⟨hcType, -, h⟩ := Option.bind_eq_some_iff.mp h
  split at h
  · cases h
  · cases h
    simp only
    split
    · next hpos => exact UInt32.lt_iff_toNat_lt.mp hpos
    · decide

theorem reportsEvery_probing {svc : Service} {config : HealthCheckConfig}
    (hty : svc.effectiveType ≠ "static")
    (h : HealthCheckConfig.fromService svc = some config) :
    ReportsEvery svc config.interval.toNat := by
  have htask : healthTask svc = .probing config := by simp [healthTask, hty, h]
  refine ⟨interval_pos h, fun now hdue => ?_, fun now hpos hdvd => ?_, fun failCount => ?_⟩
  · rw [htask, HealthTask.due, Bool.and_eq_true] at hdue
    exact Nat.dvd_of_mod_eq_zero (of_decide_eq_true hdue.2)
  · rw [htask, HealthTask.due, Bool.and_eq_true]
    exact ⟨decide_eq_true hpos, decide_eq_true (Nat.mod_eq_zero_of_dvd hdvd)⟩
  · rw [htask]
    rfl

theorem HealthEntry.monitored_eq {entry : HealthEntry} {now : Nat}
    (h : entry.config.healthCheck = none ∨
      now - entry.lastHealthCheck ≤ silenceLimit entry.config) : entry.monitored now = entry := by
  unfold monitored
  split
  · rfl
  · split
    · rfl
    · next hsome => rw [if_neg (Nat.not_lt.mpr (h.resolve_left hsome))]

structure Recent (svc : Service) (period now : Nat) (entry : HealthEntry) : Prop where
  config : entry.config = svc
  healthy : entry.healthy = true
  reported : period ∣ entry.lastHealthCheck
  past : entry.lastHealthCheck ≤ now
  recent : now ≤ entry.lastHealthCheck + period

namespace Recent

variable {svc : Service} {period now : Nat} {run : HealthRun}

theorem switch (h : Recent svc period now run.entry) (plan : MonitorPlan) :
    Recent svc period now (run.switch plan now).entry :=
  ⟨h.config, h.healthy, h.reported, h.past, h.recent⟩

theorem monitor (h : Recent svc period now run.entry) (hlimit : period ≤ silenceLimit svc)
    (plan : MonitorPlan) : run.monitor plan now = run := by
  unfold HealthRun.monitor
  split
  · rw [HealthEntry.monitored_eq]
    have hpast := h.past
    have hrecent := h.recent
    rw [h.config]
    exact .inr (by omega)
  · rfl

theorem probe (h : Recent svc period now run.entry) (hr : ReportsEvery svc period) :
    Recent svc period now (run.probe now).entry ∧
      Recent svc period (now + 1) (run.probe now).entry := by
  have hpos := hr.pos
  unfold HealthRun.probe
  simp only [h.config, hr.report, Option.elim_some]
  split
  · next hdue =>
    have hdvd := hr.sound now hdue
    refine ⟨⟨h.config, rfl, hdvd, Nat.le_refl _, ?_⟩, ⟨h.config, rfl, hdvd, Nat.le_succ _, ?_⟩⟩
    · exact Nat.le_add_right _ _
    · exact Nat.add_le_add_left hpos now
  · next hnot =>
    refine ⟨h, ⟨h.config, h.healthy, h.reported, Nat.le_succ_of_le h.past, ?_⟩⟩
    have hne : now ≠ run.entry.lastHealthCheck + period := by
      rintro rfl
      exact hnot (hr.complete _ (by omega) (Nat.dvd_add h.reported (Nat.dvd_refl _)))
    have hrecent := h.recent
    omega

theorem atMonitor (h : Recent svc period now run.entry) (hr : ReportsEvery svc period)
    (hlimit : period ≤ silenceLimit svc) (plan : MonitorPlan) :
    Recent svc period now (run.atMonitor plan now).entry := by
  have hswitch := h.switch plan
  unfold HealthRun.atMonitor
  simp only
  split
  · rw [hswitch.monitor hlimit plan]
    exact hswitch
  · have hprobe := (hswitch.probe hr).1
    rw [hprobe.monitor hlimit plan]
    exact hprobe

theorem second (h : Recent svc period now run.entry) (hr : ReportsEvery svc period)
    (hlimit : period ≤ silenceLimit svc) (plan : MonitorPlan) :
    Recent svc period (now + 1) (run.second plan now).entry := by
  have hswitch := h.switch plan
  unfold HealthRun.second HealthRun.atMonitor
  simp only
  split
  · rw [hswitch.monitor hlimit plan]
    exact (hswitch.probe hr).2
  · rw [(hswitch.probe hr).1.monitor hlimit plan]
    exact (hswitch.probe hr).2

theorem after (hr : ReportsEvery svc period) (hlimit : period ≤ silenceLimit svc)
    (plan : MonitorPlan) (now : Nat) :
    Recent svc period now (HealthRun.after plan svc now).entry := by
  induction now with
  | zero => exact ⟨rfl, rfl, Nat.dvd_zero _, Nat.le_refl _, Nat.zero_le _⟩
  | succ now ih => exact ih.second hr hlimit plan

end Recent

theorem HealthTask.report_good (task : HealthTask) (failCount : UInt32) :
    (task.report failCount).2 = none ∨ (task.report failCount).2 = some true := by
  cases task with
  | idle => exact .inl rfl
  | directory => exact .inr rfl
  | probing config => exact .inr rfl

theorem probe_config (run : HealthRun) (now : Nat) :
    (run.probe now).entry.config = run.entry.config := by
  unfold HealthRun.probe
  simp only
  split
  · rcases (healthTask run.entry.config).report_good run.failCount with hnone | hgood
    · rw [hnone]
      rfl
    · rw [hgood]
      rfl
  · rfl

theorem probe_healthy {run : HealthRun} (h : run.entry.healthy = true) (now : Nat) :
    (run.probe now).entry.healthy = true := by
  unfold HealthRun.probe
  simp only
  split
  · rcases (healthTask run.entry.config).report_good run.failCount with hnone | hgood
    · rw [hnone]
      exact h
    · rw [hgood]
      rfl
  · exact h

theorem monitored_kept (entry : HealthEntry) (now : Nat) :
    (entry.monitored now).config = entry.config ∧
      (entry.monitored now).lastHealthCheck = entry.lastHealthCheck := by
  unfold HealthEntry.monitored
  split
  · exact ⟨rfl, rfl⟩
  · split
    · exact ⟨rfl, rfl⟩
    · split
      · exact ⟨rfl, rfl⟩
      · exact ⟨rfl, rfl⟩

theorem monitor_kept (run : HealthRun) (plan : MonitorPlan) (now : Nat) :
    (run.monitor plan now).entry.config = run.entry.config ∧
      (run.monitor plan now).entry.lastHealthCheck = run.entry.lastHealthCheck := by
  unfold HealthRun.monitor
  split
  · exact monitored_kept run.entry now
  · exact ⟨rfl, rfl⟩

structure Unwatched (svc : Service) (run : HealthRun) : Prop where
  config : run.entry.config = svc
  healthy : run.entry.healthy = true

namespace Unwatched

variable {svc : Service} {run : HealthRun}

theorem probe (h : Unwatched svc run) (now : Nat) : Unwatched svc (run.probe now) :=
  ⟨(probe_config run now).trans h.config, probe_healthy h.healthy now⟩

theorem monitor (h : Unwatched svc run) (hcheck : svc.healthCheck = none) (plan : MonitorPlan)
    (now : Nat) : Unwatched svc (run.monitor plan now) := by
  unfold HealthRun.monitor
  split
  · rw [HealthEntry.monitored_eq (.inl (h.config ▸ hcheck))]
    exact h
  · exact h

theorem atMonitor (h : Unwatched svc run) (hcheck : svc.healthCheck = none) (plan : MonitorPlan)
    (now : Nat) : Unwatched svc (run.atMonitor plan now) := by
  have hswitch : Unwatched svc (run.switch plan now) := ⟨h.config, h.healthy⟩
  unfold HealthRun.atMonitor
  refine Unwatched.monitor ?_ hcheck plan now
  split
  · exact hswitch
  · exact hswitch.probe now

theorem after (hcheck : svc.healthCheck = none) (plan : MonitorPlan) (now : Nat) :
    Unwatched svc (HealthRun.after plan svc now) := by
  induction now with
  | zero => exact ⟨rfl, rfl⟩
  | succ now ih =>
    have hmonitor := ih.atMonitor hcheck plan now
    unfold HealthRun.after HealthRun.second
    simp only
    split
    · exact hmonitor.probe now
    · exact hmonitor

end Unwatched

structure Silent (svc : Service) (run : HealthRun) : Prop where
  config : run.entry.config = svc
  never : run.entry.lastHealthCheck = 0

namespace Silent

variable {svc : Service} {run : HealthRun} {now : Nat}

theorem probe (h : Silent svc run) (hdue : (healthTask svc).due now = false) :
    Silent svc (run.probe now) := by
  have hsame : run.probe now = run := by simp [HealthRun.probe, h.config, hdue]
  rw [hsame]
  exact h

theorem monitor (h : Silent svc run) (plan : MonitorPlan) (now : Nat) :
    Silent svc (run.monitor plan now) := by
  obtain ⟨hconfig, hlast⟩ := monitor_kept run plan now
  exact ⟨hconfig.trans h.config, hlast.trans h.never⟩

theorem second (h : Silent svc run) (hdue : (healthTask svc).due now = false)
    (plan : MonitorPlan) : Silent svc (run.second plan now) := by
  have hswitch : Silent svc (run.switch plan now) := ⟨h.config, h.never⟩
  unfold HealthRun.second HealthRun.atMonitor
  simp only
  split
  · exact (hswitch.monitor plan now).probe hdue
  · exact (hswitch.probe hdue).monitor plan now

theorem after (plan : MonitorPlan) (hdue : ∀ t < now, (healthTask svc).due t = false) :
    Silent svc (HealthRun.after plan svc now) := by
  induction now with
  | zero => exact ⟨rfl, rfl⟩
  | succ now ih =>
    have hbefore := ih fun t ht => hdue t (Nat.lt_succ_of_lt ht)
    exact hbefore.second (hdue now (Nat.lt_succ_self now)) plan

end Silent

-- The monitor looks just when the silence has become too long, and before any report.
def lookAt (now : Nat) : MonitorPlan := ⟨now, fun _ => true, fun _ => true⟩

theorem marked_after_silence {svc : Service} (hcheck : svc.healthCheck ≠ none)
    (hdue : ∀ t ≤ silenceLimit svc, (healthTask svc).due t = false) : ¬NeverMarked svc := by
  intro h
  have hsilent : Silent svc (HealthRun.after (lookAt (silenceLimit svc + 1)) svc
      (silenceLimit svc + 1)) := Silent.after _ fun t ht => hdue t (Nat.le_of_lt_succ ht)
  have hmarked := h (lookAt (silenceLimit svc + 1)) (silenceLimit svc + 1) (decide_eq_true rfl)
  generalize HealthRun.after (lookAt (silenceLimit svc + 1)) svc (silenceLimit svc + 1) = run
    at hsilent hmarked
  simp [HealthRun.atMonitor, HealthRun.monitor, HealthRun.switch, lookAt, MonitorPlan.ticks,
    HealthEntry.monitored, hsilent.config, hsilent.never, hcheck] at hmarked

theorem not_due_of_lt {config : HealthCheckConfig} {t : Nat} (h : t < config.interval.toNat) :
    (HealthTask.probing config).due t = false := by
  rw [HealthTask.due, Bool.and_eq_false_iff]
  rcases Nat.eq_zero_or_pos t with rfl | hpos
  · exact .inl rfl
  · refine .inr (decide_eq_false ?_)
    rw [Nat.mod_eq_of_lt h]
    omega

theorem neverMarked_of_reports {svc : Service} {period : Nat} (hr : ReportsEvery svc period)
    (hlimit : period ≤ silenceLimit svc) : NeverMarked svc := fun plan now _ =>
  ((Recent.after hr hlimit plan now).atMonitor hr hlimit plan).healthy

theorem neverMarked_directory {svc : Service} (hty : svc.effectiveType = "static") :
    NeverMarked svc := by
  refine neverMarked_of_reports (reportsEvery_directory hty) ?_
  unfold silenceLimit
  split <;> omega

theorem never_marked_iff (svc : Service) :
    NeverMarked svc ↔ svc.healthCheck = none ∨ svc.effectiveType = "static" ∨
      ∃ config, HealthCheckConfig.fromService svc = some config ∧
        config.interval.toNat ≤ silenceLimit svc := by
  constructor
  · intro h
    by_contra hcond
    rw [not_or, not_or] at hcond
    obtain ⟨hcheck, hty, hslow⟩ := hcond
    refine marked_after_silence hcheck (fun t ht => ?_) h
    cases hconfig : HealthCheckConfig.fromService svc with
    | none => simp [healthTask, hty, hconfig, HealthTask.due]
    | some config =>
      have htask : healthTask svc = .probing config := by simp [healthTask, hty, hconfig]
      have hlong : silenceLimit svc < config.interval.toNat :=
        Nat.not_le.mp fun hle => hslow ⟨config, hconfig, hle⟩
      rw [htask]
      exact not_due_of_lt (Nat.lt_of_le_of_lt ht hlong)
  · rintro (hcheck | hty | ⟨config, hconfig, hfast⟩)
    · exact fun plan now _ =>
        ((Unwatched.after hcheck plan now).atMonitor hcheck plan now).healthy
    · exact neverMarked_directory hty
    · by_cases hty : svc.effectiveType = "static"
      · exact neverMarked_directory hty
      · exact neverMarked_of_reports (reportsEvery_probing hty hconfig) hfast

def unnamedCheck : Service := { name := "web", ty := some "http", healthCheck := some "" }

def slowCheck : Service :=
  { name := "web", ty := some "http", healthCheck := some "tcp", healthInterval := 120 }

theorem silent_services_marked : ¬NeverMarked unnamedCheck ∧ ¬NeverMarked slowCheck := by
  refine ⟨marked_after_silence (by decide) fun t _ => rfl,
    marked_after_silence (by decide) fun t ht => ?_⟩
  have hlimit : silenceLimit slowCheck < 120 := by decide
  exact not_due_of_lt (Nat.lt_of_le_of_lt ht hlimit)

end Cross233.Relay
