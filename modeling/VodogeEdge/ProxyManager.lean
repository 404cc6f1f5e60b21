import VodogeEdge.ProxyClient
import VodogeEdge.Tables

/-!
# The proxy manager

`ProxyManager` keeps one accept loop per wanted instance. A loop is
started with a copy of the instance, of the upstream as the table had it
at that moment and of the interface the resolver named; none of these is
looked at again while the loop runs.

A loop is a task of its own: aborting it ends it where it waits, but one
in the middle of a poll goes on until it waits again. The tasks are kept
by number in `loops`; `running` holds the numbers of those the manager
knows.
-/

namespace VodogeEdge.Proxy

open Std List ExtTreeMap Option

/-! ## Accept loops -/

structure CounterSnapshot where
  bytesUp : Nat := 0
  bytesDown : Nat := 0
  connections : Nat := 0
  errors : Nat := 0
deriving DecidableEq

inductive Phase where
  /-- Waiting for a client. -/
  | idle
  /-- In the middle of a poll. -/
  | polling
  /-- In the middle of a poll, aborted. -/
  | aborting
  /-- Dropped. -/
  | gone
deriving DecidableEq

def Phase.abort : Phase → Phase
  | .idle | .gone => .gone
  | .polling | .aborting => .aborting

def Phase.live : Phase → Bool
  | .idle | .polling => true
  | .aborting | .gone => false

/-- The task of `serve` and what it was started with. -/
structure Loop where
  spec : InstanceSpec
  upstream : Option UpstreamSpec
  interface : Option String
  counters : CounterSnapshot
  phase : Phase
deriving DecidableEq

def Loop.abort (loop : Loop) : Loop := { loop with phase := loop.phase.abort }

/-! ## The manager -/

structure Running where
  /-- The task behind `handle` and `counters`. -/
  task : Nat
  spec : InstanceSpec
  bound : String
  interface : Option String

structure TrafficDelta where
  instanceId : String
  bytesUp : Nat
  bytesDown : Nat
  connections : Nat
  errors : Nat

/-- The instances that are wanted, and the upstreams, by id. -/
abbrev Instances : Type := ExtTreeMap String InstanceSpec

abbrev Upstreams : Type := ExtTreeMap String UpstreamSpec

structure Manager where
  running : ExtTreeMap String Running
  failed : ExtTreeMap String (InstanceSpec × String)
  upstreams : Upstreams
  /-- The counters at the last report. -/
  reported : ExtTreeMap String CounterSnapshot
  loops : List Loop

def Manager.new : Manager := ⟨∅, ∅, ∅, ∅, []⟩

structure InstanceStatus where
  id : String
  listening : Bool
  listenAddr : String
  interface : Option String
  error : Option String
  counters : CounterSnapshot

/-- What a call finds around it: `{:?}` of a string, the resolver, and
what becomes of an attempt to bind (the local address, if it can be
told). -/
structure Surroundings where
  debug : String → String
  interfaceFor : String → Option String
  bind : InstanceSpec → Except String (Option String)

def supportedProtocol : String := "socks5"

def unsupportedProtocol (debug : String → String) (spec : InstanceSpec)
    (upstream : Option UpstreamSpec) : Option String :=
  if spec.protocol ≠ supportedProtocol then
    some ("protocol " ++ debug spec.protocol ++ " is not supported; this build serves "
      ++ supportedProtocol ++ " only")
  else
    match upstream with
    | some upstream =>
      if upstream.protocol ≠ supportedProtocol then
        some ("upstream " ++ upstream.id ++ " speaks protocol " ++ debug upstream.protocol
          ++ ", which is not supported; this build chains through " ++ supportedProtocol ++ " only")
      else none
    | none => none

def differs (wanted running : InstanceSpec) : Bool :=
  wanted.listenAddr ≠ running.listenAddr
    || wanted.listenPort ≠ running.listenPort
    || wanted.modemImei ≠ running.modemImei
    || wanted.protocol ≠ running.protocol
    || wanted.authEnabled ≠ running.authEnabled
    || wanted.username ≠ running.username
    || wanted.password ≠ running.password
    || wanted.upstreamId ≠ running.upstreamId

def InstanceSpec.address (spec : InstanceSpec) : String :=
  spec.listenAddr ++ ":" ++ toString spec.listenPort

def effectiveUpstream (upstreams : Upstreams) (spec : InstanceSpec) : Option UpstreamSpec :=
  match upstreams[spec.upstreamId]? with
  | some found => if found.enabled then some found else none
  | none => none

/-- What a listener started now would take along: upstream, interface and
local address; or the reason it cannot start, and the interface reported. -/
def prepare (around : Surroundings) (upstreams : Upstreams) (spec : InstanceSpec) :
    Except (String × Option String) (Option UpstreamSpec × String × String) :=
  let upstream := effectiveUpstream upstreams spec
  match unsupportedProtocol around.debug spec upstream with
  | some reason => .error (reason, none)
  | none =>
    match around.interfaceFor spec.modemImei with
    | none => .error ("no network interface for modem " ++ spec.modemImei, none)
    | some interface =>
      match around.bind spec with
      | .error reason => .error (reason, some interface)
      | .ok bound => .ok (upstream, interface, bound.getD "0.0.0.0:0")

namespace Manager

variable (around : Surroundings)

def start (m : Manager) (spec : InstanceSpec) : InstanceStatus × Manager :=
  match prepare around m.upstreams spec with
  | .error (reason, interface) =>
    (⟨spec.id, false, spec.address, interface, some reason, {}⟩,
      { m with failed := m.failed.insert spec.id (spec, reason) })
  | .ok (upstream, interface, bound) =>
    (⟨spec.id, true, bound, some interface, none, {}⟩,
      { m with
        running := m.running.insert spec.id ⟨m.loops.length, spec, bound, some interface⟩
        loops := m.loops ++ [⟨spec, upstream, some interface, {}, .idle⟩] })

variable (m : Manager)

def tearDown (id : String) : Manager :=
  match m.running[id]? with
  | some previous =>
    { m with
      running := m.running.erase id
      loops := m.loops.modify previous.task Loop.abort }
  | none => m

def stop (id : String) : Bool × Manager := (m.running.contains id, m.tearDown id)

/-- The configuration of an instance that runs or failed to. -/
def configured (id : String) : Option InstanceSpec :=
  match m.running[id]? with
  | some running => some running.spec
  | none => m.failed[id]?.map Prod.fst

def restart (m : Manager) (id : String) : Option InstanceStatus × Manager :=
  match m.configured id with
  | some spec =>
    let (status, m) := (m.stop id).2.start around spec
    (some status, m)
  | none => (none, m)

def statusOf (id : String) : Option InstanceStatus :=
  match m.running[id]? with
  | some running =>
    some ⟨id, true, running.bound, running.interface, none,
      (m.loops[running.task]?.map (·.counters)).getD {}⟩
  | none =>
    m.failed[id]?.map fun (spec, reason) => ⟨id, false, spec.address, none, some reason, {}⟩

def stale (wanted : Instances) (id : String) : Bool :=
  match wanted[id]?, m.running[id]? with
  | some spec, some running => !spec.enabled || differs spec running.spec
  | _, _ => true

def reconcile (m : Manager) (id : String) (spec : InstanceSpec) : Option InstanceStatus × Manager :=
  if !spec.enabled then (some ⟨id, false, spec.address, none, none, {}⟩, m)
  else if m.running.contains id then (m.statusOf id, m)
  else
    let (status, m) := m.start around spec
    (some status, m)

/-- The wanted instances by id; of two with one id the later counts. -/
def wantedOf (instances : List InstanceSpec) : Instances :=
  instances.foldl (fun table spec => table.insert spec.id spec) ∅

def upstreamTable (upstreams : List UpstreamSpec) : Upstreams :=
  upstreams.foldl (fun table upstream => table.insert upstream.id upstream) ∅

/-- The manager with the new table and without the stale listeners. -/
def prune (wanted : Instances) (upstreams : Upstreams) : Manager :=
  { (m.running.keys.filter (m.stale wanted)).foldl tearDown { m with upstreams := upstreams } with
    failed := ∅ }

/-- The wanted instances in turn. A hash map yields them in no order one
could rely on; here they come by id. -/
def reconcileAll (m : Manager) (wanted : List (String × InstanceSpec)) :
    List InstanceStatus × Manager :=
  wanted.foldl (fun (statuses, m) (id, spec) =>
    let (status, m) := m.reconcile around id spec
    (statuses ++ status.toList, m)) ([], m)

def apply (m : Manager) (instances : List InstanceSpec)
    (upstreams : List UpstreamSpec) : List InstanceStatus × Manager :=
  let wanted := wantedOf instances
  (m.prune wanted (upstreamTable upstreams)).reconcileAll around wanted.toList

def countersOf (running : Running) : CounterSnapshot :=
  (m.loops[running.task]?.map (·.counters)).getD {}

/-- The traffic of each running instance since the last call; what
vanished keeps no baseline. -/
def drainTraffic : List TrafficDelta × Manager :=
  let (out, reported) := m.running.toList.foldl (fun (out, reported) (id, running) =>
    let now := m.countersOf running
    let previous := (reported[id]?).getD {}
    let delta : TrafficDelta :=
      ⟨id, now.bytesUp - previous.bytesUp, now.bytesDown - previous.bytesDown,
        now.connections - previous.connections, now.errors - previous.errors⟩
    let busy := 0 < delta.bytesUp ∨ 0 < delta.bytesDown ∨ 0 < delta.connections ∨ 0 < delta.errors
    (if busy then out ++ [delta] else out, reported.insert id now)) ([], m.reported)
  (out, { m with reported := reported.filter fun id _ => m.running.contains id })

end Manager

/-! ## What a call does to an entry -/

structure View where
  spec : InstanceSpec
  upstream : Option UpstreamSpec
  interface : Option String
deriving DecidableEq

def Loop.view (loop : Loop) : View := ⟨loop.spec, loop.upstream, loop.interface⟩

/-- The loop as it is spawned. -/
def Loop.started (view : View) : Loop := ⟨view.spec, view.upstream, view.interface, {}, .idle⟩

def captured (around : Surroundings) (upstreams : Upstreams) (spec : InstanceSpec) : Option View :=
  match prepare around upstreams spec with
  | .ok (upstream, interface, _) => some ⟨spec, upstream, some interface⟩
  | .error _ => none

namespace Manager

def listener (m : Manager) (id : String) : Option View :=
  m.running[id]?.bind fun running => m.loops[running.task]?.map Loop.view

/-- The task the entry of the id holds. -/
def task (m : Manager) (id : String) : Option Nat := m.running[id]?.map Running.task

/-- Every entry holds a live loop with the instance of that id. -/
def Sound (m : Manager) : Prop :=
  ∀ (id : String) (running : Running), m.running[id]? = some running → running.spec.id = id ∧
    ∃ loop : Loop, m.loops[running.task]? = some loop ∧ loop.spec = running.spec ∧
      loop.interface = running.interface ∧ loop.phase.live

variable {m : Manager} {around : Surroundings} {id id' : String} {spec : InstanceSpec}
  {running : Running} {n : Nat} {loop : Loop}

theorem sound_new : Sound Manager.new := by
  intro id running h
  simp [Manager.new] at h

theorem Sound.task_ne (h : m.Sound) {running' : Running} (hr : m.running[id]? = some running)
    (hr' : m.running[id']? = some running') (hne : id ≠ id') : running.task ≠ running'.task := by
  obtain ⟨hid, loop, hloop, hspec, -⟩ := h id running hr
  obtain ⟨hid', loop', hloop', hspec', -⟩ := h id' running' hr'
  intro htask
  rw [htask, hloop', some_inj] at hloop
  exact hne (by rw [← hid, ← hid', ← hspec, ← hspec', hloop])

theorem Sound.listener_eq_none (h : m.Sound) : m.listener id = none ↔ m.running[id]? = none := by
  cases hr : m.running[id]? with
  | none => simp [listener, hr]
  | some running =>
    obtain ⟨-, loop, hloop, -⟩ := h id running hr
    simp [listener, hr, hloop]

theorem Sound.spec_of_task (h : m.Sound) (hloop : m.loops[n]? = some loop)
    (htask : m.task id = some n) : loop.spec.id = id := by
  obtain ⟨running, hrunning, rfl⟩ := Option.map_eq_some_iff.mp htask
  obtain ⟨hid, loop', hloop', hspec, -⟩ := h id running hrunning
  obtain rfl := Option.some_inj.mp (hloop.symm.trans hloop')
  rw [hspec, hid]

/-! ### Tearing down -/

theorem running_tearDown (m : Manager) (id id' : String) :
    (m.tearDown id').running[id]? = if id' = id then none else m.running[id]? := by
  cases hr : m.running[id']? with
  | none =>
    simp only [tearDown, hr]
    by_cases heq : id' = id
    · rw [if_pos heq, ← heq, hr]
    · rw [if_neg heq]
  | some previous => simp [tearDown, hr, getElem?_erase]

theorem task_tearDown (m : Manager) (id id' : String) :
    (m.tearDown id').task id = if id' = id then none else m.task id := by
  rw [task, running_tearDown]
  split <;> rfl

theorem getElem?_tearDown : (m.tearDown id).loops[n]? =
    m.loops[n]?.map fun loop => if m.task id = some n then loop.abort else loop := by
  rw [tearDown, task]
  cases m.running[id]? with
  | none => simp
  | some previous =>
    rw [List.getElem?_modify]
    simp

@[simp] theorem upstreams_tearDown : (m.tearDown id').upstreams = m.upstreams := by
  rw [tearDown]
  split <;> rfl

theorem getElem?_loops_tearDown (h : m.Sound) (hne : id' ≠ id)
    (hr : m.running[id]? = some running) :
    (m.tearDown id').loops[running.task]? = m.loops[running.task]? := by
  cases hr' : m.running[id']? with
  | none => simp [tearDown, hr']
  | some previous =>
    simp only [tearDown, hr']
    exact getElem?_modify_ne _ _ (h.task_ne hr' hr hne)

theorem Sound.tearDown (h : m.Sound) (id' : String) : (m.tearDown id').Sound := by
  intro id running hr
  rw [running_tearDown] at hr
  split at hr
  · cases hr
  next hne =>
    rw [getElem?_loops_tearDown h hne hr]
    exact h id running hr

theorem listener_tearDown (h : m.Sound) :
    (m.tearDown id').listener id = if id' = id then none else m.listener id := by
  rw [listener, running_tearDown]
  split
  · rfl
  next hne =>
    rw [listener]
    cases hr : m.running[id]? with
    | none => rfl
    | some running => rw [bind_some, bind_some, getElem?_loops_tearDown h hne hr]

/-! ### Starting -/

@[simp] theorem upstreams_start : (m.start around spec).2.upstreams = m.upstreams := by
  rw [start]
  split <;> rfl

theorem loops_start : (m.start around spec).2.loops
    = m.loops ++ (captured around m.upstreams spec).toList.map Loop.started := by
  rw [Manager.start, captured]
  cases prepare around m.upstreams spec with
  | error reason => exact (append_nil _).symm
  | ok taken => rfl

theorem Sound.start (h : m.Sound) : (m.start around spec).2.Sound := by
  intro id running hr
  rw [Manager.start] at hr ⊢
  split at hr
  · exact h id running hr
  next upstream interface bound hprepare =>
    rw [ExtTreeMap.getElem?_insert] at hr
    split at hr
    next heq =>
      cases hr
      exact ⟨Std.compare_eq_iff_eq.mp heq, _, getElem?_concat_length, rfl, rfl, rfl⟩
    · obtain ⟨hid, loop, hloop, hrest⟩ := h id running hr
      have hlt := (List.getElem?_eq_some_iff.mp hloop).1
      exact ⟨hid, loop, by rw [getElem?_append_left hlt, hloop], hrest⟩

theorem listener_start (h : m.Sound) :
    (m.start around spec).2.listener id =
      if spec.id = id then (captured around m.upstreams spec).or (m.listener id)
      else m.listener id := by
  rw [Manager.start, captured]
  cases hprepare : prepare around m.upstreams spec with
  | error reason => simp [listener]
  | ok taken =>
    rw [listener]
    rw [ExtTreeMap.getElem?_insert]
    simp only [Std.compare_eq_iff_eq]
    split
    · rw [bind_some, getElem?_concat_length]
      rfl
    · rw [listener]
      cases hr : m.running[id]? with
      | none => rfl
      | some running =>
        obtain ⟨-, loop, hloop, -⟩ := h id running hr
        have hlt := (List.getElem?_eq_some_iff.mp hloop).1
        rw [bind_some, bind_some, getElem?_append_left hlt]

/-! ### Applying -/

variable {P : Manager → Prop} (wanted : List (String × InstanceSpec))
  {instances : List InstanceSpec}

theorem prune_induction (hfailed : ∀ m, P m → P { m with failed := ∅ })
    (htearDown : ∀ m id, P m → P (m.tearDown id)) (wanted : Instances)
    (upstreams : Upstreams) (h : P { m with upstreams := upstreams }) :
    P (m.prune wanted upstreams) :=
  hfailed _ (foldlRecOn _ tearDown h fun m hm id _ => htearDown m id hm)

theorem listener_foldl_tearDown (ids : List String) : ∀ {m : Manager}, m.Sound → ∀ id,
    (ids.foldl tearDown m).listener id = if id ∈ ids then none else m.listener id := by
  induction ids with
  | nil => intro m h id; simp
  | cons first ids ih =>
    intro m h id
    rw [foldl_cons, ih (h.tearDown first), listener_tearDown h]
    by_cases hmem : id ∈ ids
    · simp [hmem]
    · by_cases hfirst : first = id
      · simp [hfirst]
      · simp [hfirst, Ne.symm]

theorem getElem?_foldl_tearDown (ids : List String) : ∀ {m : Manager}, m.Sound →
    (ids.foldl tearDown m).loops[n]? = m.loops[n]?.map fun loop =>
      if loop.spec.id ∈ ids ∧ m.task loop.spec.id = some n then loop.abort else loop := by
  induction ids with
  | nil => simp
  | cons first ids ih =>
    intro m h
    rw [foldl_cons, ih (h.tearDown first), getElem?_tearDown]
    cases hloop : m.loops[n]? with
    | none => rfl
    | some loop =>
      simp only [Option.map_some, some_inj, task_tearDown]
      by_cases hfirst : m.task first = some n
      · obtain rfl := h.spec_of_task hloop hfirst
        simp [hfirst, Loop.abort]
      · by_cases heq : first = loop.spec.id
        · subst heq
          simp [hfirst]
        · simp [hfirst, heq, Ne.symm heq]

theorem Sound.prune (h : m.Sound) (wanted : Instances)
    (upstreams : Upstreams) : (m.prune wanted upstreams).Sound :=
  prune_induction (fun _ h => h) (fun _ id h => h.tearDown id) wanted upstreams h

@[simp] theorem upstreams_prune (wanted : Instances) (upstreams : Upstreams) :
    (m.prune wanted upstreams).upstreams = upstreams :=
  prune_induction (P := (·.upstreams = upstreams)) (fun _ h => h)
    (fun _ _ h => upstreams_tearDown.trans h) wanted upstreams rfl

theorem getElem?_prune (h : m.Sound) (wanted : Instances) (upstreams : Upstreams) :
    (m.prune wanted upstreams).loops[n]? = m.loops[n]?.map fun loop =>
      if m.stale wanted loop.spec.id ∧ m.task loop.spec.id = some n
      then loop.abort else loop := by
  refine (getElem?_foldl_tearDown _ (show Sound { m with upstreams := upstreams } from h)).trans ?_
  congr 1
  funext loop
  refine if_congr ?_ rfl rfl
  rw [mem_filter, ExtTreeMap.mem_keys, mem_table]
  constructor
  · exact fun ⟨hmem, htask⟩ => ⟨hmem.2, htask⟩
  · rintro ⟨hstale, htask⟩
    obtain ⟨running, hrunning, -⟩ := Option.map_eq_some_iff.mp htask
    exact ⟨⟨⟨running, hrunning⟩, hstale⟩, htask⟩

theorem listener_prune (h : m.Sound) (wanted : Instances) (upstreams : Upstreams) :
    (m.prune wanted upstreams).listener id = if m.stale wanted id then none else m.listener id := by
  have hfold := listener_foldl_tearDown (m.running.keys.filter (m.stale wanted))
    (show Sound { m with upstreams := upstreams } from h) id
  change (List.foldl tearDown _ _).listener id = _
  rw [hfold]
  by_cases hstale : m.stale wanted id
  · split
    · rfl
    next hmem =>
      rw [mem_filter, not_and_or] at hmem
      have hnone : m.running[id]? = none := by
        rcases hmem with hmem | hmem
        · exact not_mem_table.mp (mt ExtTreeMap.mem_keys.mpr hmem)
        · exact absurd hstale hmem
      exact h.listener_eq_none.mpr hnone
  · rw [if_neg hstale, if_neg (fun hmem => hstale (mem_filter.mp hmem).2)]
    rfl

theorem Sound.reconcile (h : m.Sound) : (m.reconcile around id spec).2.Sound := by
  rw [Manager.reconcile]
  split
  · exact h
  · split
    · exact h
    · exact h.start

@[simp] theorem upstreams_reconcile : (m.reconcile around id spec).2.upstreams = m.upstreams := by
  rw [reconcile]
  split
  · rfl
  · split
    · rfl
    · exact upstreams_start

theorem listener_reconcile (h : m.Sound) (hspec : spec.id = id') :
    (m.reconcile around id' spec).2.listener id =
      if id' = id ∧ spec.enabled
      then (m.listener id).or (captured around m.upstreams spec) else m.listener id := by
  rw [reconcile]
  cases henabled : spec.enabled with
  | false => simp
  | true =>
    simp only [Bool.not_true, Bool.false_eq_true, if_false, and_true]
    by_cases hrunning : m.running.contains id'
    · rw [if_pos hrunning]
      split
      next heq =>
        subst heq
        cases hlistener : m.listener id' with
        | none =>
          rw [h.listener_eq_none, ← not_mem_table] at hlistener
          exact absurd (contains_iff_mem.mp hrunning) hlistener
        | some view => rfl
      · rfl
    · rw [if_neg hrunning]
      refine (listener_start h).trans ?_
      subst hspec
      split
      next heq =>
        have hnone : m.listener spec.id = none :=
          h.listener_eq_none.mpr (not_mem_table.mp (mt contains_iff_mem.mpr hrunning))
        rw [← heq, hnone, or_none, none_or]
      · rfl

def reconciled (around : Surroundings) (m : Manager) (wanted : List (String × InstanceSpec)) :
    Manager :=
  wanted.foldl (fun m (id, spec) => (m.reconcile around id spec).2) m

theorem reconcileAll_snd : (m.reconcileAll around wanted).2 = m.reconciled around wanted := by
  have hfold : ∀ wanted statuses
      (m : Manager), (wanted.foldl (fun x y =>
        (x.1 ++ (x.2.reconcile around y.1 y.2).1.toList, (x.2.reconcile around y.1 y.2).2))
          (statuses, m)).2 = m.reconciled around wanted := by
    intro wanted
    induction wanted with
    | nil => exact fun _ _ => rfl
    | cons first wanted ih => exact fun _ _ => ih _ _
  exact hfold wanted [] m

/-- Each wanted instance by itself: the others do not touch it. -/
theorem listener_reconciled :
    ∀ {m : Manager}, m.Sound → (∀ entry ∈ wanted, entry.2.id = entry.1) →
      (wanted.map Prod.fst).Nodup → ∀ id,
      (∀ spec, (id, spec) ∈ wanted → (m.reconciled around wanted).listener id =
        if spec.enabled then (m.listener id).or (captured around m.upstreams spec)
        else m.listener id) ∧
      (id ∉ wanted.map Prod.fst → (m.reconciled around wanted).listener id = m.listener id) := by
  induction wanted with
  | nil => exact fun _ _ _ id => ⟨fun spec h => absurd h not_mem_nil, fun _ => rfl⟩
  | cons first wanted ih =>
    intro m hsound hids hnodup id
    obtain ⟨firstId, firstSpec⟩ := first
    rw [map_cons, nodup_cons] at hnodup
    have hfirst : firstSpec.id = firstId := hids _ mem_cons_self
    have hnext : (m.reconcile around firstId firstSpec).2.Sound := hsound.reconcile
    obtain ⟨hmem, hnot⟩ := ih hnext (fun entry h => hids entry (mem_cons_of_mem _ h)) hnodup.2 id
    rw [listener_reconcile hsound hfirst] at hmem
    rw [listener_reconcile hsound hfirst] at hnot
    change (∀ spec, _ → (((m.reconcile around firstId firstSpec).2).reconciled around
      wanted).listener id = _) ∧ (_ → (((m.reconcile around firstId firstSpec).2).reconciled
        around wanted).listener id = _)
    constructor
    · intro spec hspec
      rcases mem_cons.mp hspec with heq | hspec
      · obtain ⟨rfl, rfl⟩ := Prod.mk.inj heq
        rw [hnot hnodup.1]
        simp
      · have hne : firstId ≠ id := fun heq => hnodup.1 (mem_map.mpr ⟨(id, spec), hspec, heq.symm⟩)
        rw [hmem spec hspec]
        simp [hne]
    · intro hid
      rw [map_cons, mem_cons, not_or] at hid
      rw [hnot hid.2, if_neg (fun h => hid.1 h.1.symm)]

/-! ### The wanted instances -/

theorem id_of_wantedOf (h : (wantedOf instances)[id]? = some spec) :
    spec.id = id ∧ spec ∈ instances := by
  have hall : ∀ id spec, (wantedOf instances)[id]? = some spec →
      spec.id = id ∧ spec ∈ instances := by
    refine foldlRecOn (motive := fun table : Instances =>
      ∀ id spec, table[id]? = some spec →
        spec.id = id ∧ spec ∈ instances) instances _ (fun _ _ h => ?_) ?_
    · cases getElem?_empty.symm.trans h
    intro table h first hmem id spec hfound
    rw [ExtTreeMap.getElem?_insert] at hfound
    split at hfound
    next heq =>
      obtain rfl := some_inj.mp hfound
      exact ⟨Std.compare_eq_iff_eq.mp heq, hmem⟩
    · exact h id spec hfound
  exact hall id spec h

theorem mem_toList_wantedOf {entry : String × InstanceSpec}
    (h : entry ∈ (wantedOf instances).toList) : entry.2.id = entry.1 :=
  (id_of_wantedOf (mem_toList_iff_getElem?_eq_some.mp h)).1

/-- `apply` tears down, and starts listeners of ids that have none. -/
theorem apply_induction (hfailed : ∀ m, P m → P { m with failed := ∅ })
    (htearDown : ∀ m id, P m → P (m.tearDown id))
    (hstart : ∀ m spec, m.running[spec.id]? = none → P m →
      P (m.start around spec).2)
    {upstreams : List UpstreamSpec} (h : P { m with upstreams := upstreamTable upstreams }) :
    P (m.apply around instances upstreams).2 := by
  rw [apply, reconcileAll_snd]
  refine foldlRecOn _ _ (prune_induction hfailed htearDown _ _ h) fun m hm entry hentry => ?_
  dsimp only
  rw [reconcile]
  split
  · exact hm
  · split
    · exact hm
    next hrunning =>
      refine hstart m entry.2 ?_ hm
      rw [mem_toList_wantedOf hentry]
      exact not_mem_table.mp (mt contains_iff_mem.mpr hrunning)

end Manager

end VodogeEdge.Proxy
