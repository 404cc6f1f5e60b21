import VodogeEdge.ProxyApply

/-!
# Chaining through an upstream

An instance that names an upstream is meant to reach the world only
through it. The upstream is looked up when the listener starts; one that
is missing from the table or disabled is the same to the listener as
none, and its clients are connected straight to where they ask.

A listener that an `apply` keeps goes on with the upstream it was started
with, whatever the new table says of it.

`upstream_never_bypassed_iff` says for which runs every listener connects
to its upstream as the table has it: those in which every listener that is
started finds the upstream its instance names, and no `apply` that keeps
the listener moves, disables or drops that upstream.
-/

namespace VodogeEdge.Proxy

open List Manager Option

open Std Talk

/-! ## What the handshake says -/

theorem quiet_drainBound (addressType : UInt8) : Talk.Quiet (drainBound addressType) := by
  rw [drainBound]
  split
  · exact (quiet_readExact _ _).bind fun _ => quiet_pure _
  split
  · exact (quiet_readExact _ _).bind fun _ => quiet_pure _
  split
  · exact (quiet_readExact _ _).bind fun _ => (quiet_readExact _ _).bind fun _ => quiet_pure _
  · exact quiet_pure _

theorem quiet_readAnswer : Talk.Quiet readAnswer := by
  refine (quiet_readExact _ _).bind fun answer => ?_
  split
  · exact quiet_fail _
  · exact quiet_drainBound _

variable {upstream : UpstreamSpec} {view : View}

/-- A handshake that succeeds ends with the client's target. -/
theorem written_upstreamHandshake {target : Target} {s s' : Socket}
    (h : (upstreamHandshake upstream target).run s = (.done (), s')) :
    connectRequest target <:+ s'.written := by
  obtain ⟨chosen, t, -, h⟩ := run_bind_eq_done.mp h
  obtain ⟨_, t', -, h⟩ := run_bind_eq_done.mp h
  obtain ⟨_, t'', hwrite, hrest⟩ := run_bind_eq_done.mp h
  have hwritten := quiet_readAnswer t''
  rw [hrest, (written_writeAll hwrite).1] at hwritten
  exact ⟨t'.written, hwritten.symm⟩

/-- With an upstream the only attempt is to its address, and a connection
that comes up has been told the target. -/
theorem connectOut_upstream (network : Network) (target : Target) (upstream : UpstreamSpec)
    (interface : Option String) :
    (connectOut network target (some upstream) interface).2
        = [⟨.upstream upstream.address, interface⟩] ∧
      ∀ server, (connectOut network target (some upstream) interface).1 = .done server →
        connectRequest target <:+ server.written := by
  rw [connectOut, connectVia]
  cases network.connect ⟨.upstream upstream.address, interface⟩ with
  | error error => exact ⟨rfl, fun server h => by cases h⟩
  | ok stream =>
    rcases hrun : (upstreamHandshake upstream target).run stream with ⟨result, stream'⟩
    cases result with
    | done value =>
      refine ⟨by simp [hrun], fun server h => ?_⟩
      simp only [hrun, Talked.done.injEq] at h
      exact h ▸ written_upstreamHandshake hrun
    | failed | blocked => exact ⟨by simp [hrun], fun server h => by simp [hrun] at h⟩

theorem connectOut_direct (network : Network) (target : Target) (interface : Option String) :
    (connectOut network target none interface).2 = [⟨.target target, interface⟩] := by
  rw [connectOut, connectVia]
  cases network.connect ⟨.target target, interface⟩ <;> rfl

/-! ## Listeners that chain -/

/-- Whatever a client asks for, a listener whose instance names an
upstream connects to the enabled upstream of that id in the table and
tells it the target. -/
def Routed (upstreams : Upstreams) (view : View) : Prop :=
  view.spec.upstreamId ≠ "" → ∃ upstream : UpstreamSpec,
    upstreams[view.spec.upstreamId]? = some upstream ∧ upstream.enabled ∧
      ∀ network target,
        (connectOut network target view.upstream view.interface).2
            = [⟨.upstream upstream.address, view.interface⟩] ∧
          ∀ server, (connectOut network target view.upstream view.interface).1 = .done server →
            connectRequest target <:+ server.written

theorem connectOut_address {address : String} (h : ∀ network target,
    (connectOut network target view.upstream view.interface).2
      = [⟨.upstream address, view.interface⟩]) :
    ∃ taken, view.upstream = some taken ∧ taken.address = address := by
  have hdialled := h ⟨fun _ => .ok .fresh⟩ (.domain "" 0)
  cases hupstream : view.upstream with
  | none =>
    rw [hupstream, connectOut_direct] at hdialled
    cases hdialled
  | some taken =>
    rw [hupstream, (connectOut_upstream _ _ taken _).1] at hdialled
    cases hdialled
    exact ⟨taken, rfl, rfl⟩

variable {upstreams : Upstreams} {views : List View} {spec : InstanceSpec}
  {around : Surroundings} {event : Event}

theorem effectiveUpstream_eq_some :
    effectiveUpstream upstreams spec = some upstream ↔
      upstreams[spec.upstreamId]? = some upstream ∧ upstream.enabled := by
  rw [effectiveUpstream]
  cases upstreams[spec.upstreamId]? with
  | none => simp
  | some found =>
    by_cases henabled : found.enabled
    · simp only [henabled, if_true, some_inj]
      constructor
      · rintro rfl
        exact ⟨rfl, henabled⟩
      · exact fun h => h.1
    · simp only [henabled, if_false, reduceCtorEq, some_inj, false_iff, not_and]
      rintro rfl
      exact henabled

def HasUpstream (upstreams : Upstreams) (id : String) : Prop :=
  ∃ upstream, upstreams[id]? = some upstream ∧ upstream.enabled

/-- Whatever its upstream, nothing else keeps the instance's listener from
starting. -/
structure Startable (around : Surroundings) (spec : InstanceSpec) : Prop where
  protocol : spec.protocol = supportedProtocol
  interface : (around.interfaceFor spec.modemImei).isSome
  binds : ∃ bound, around.bind spec = .ok bound

theorem captured_eq_some (h : captured around upstreams spec = some view) :
    view.spec = spec ∧ view.upstream = effectiveUpstream upstreams spec ∧
      Startable around spec := by
  have hbind : ∃ bound, around.bind spec = .ok bound := by
    cases hb : around.bind spec with
    | ok bound => exact ⟨bound, rfl⟩
    | error reason =>
      rw [captured, prepare, hb] at h
      cases hu : unsupportedProtocol around.debug spec (effectiveUpstream upstreams spec) <;>
        cases hi : around.interfaceFor spec.modemImei <;> simp [hu, hi] at h
  have hcurrent := (captured_eq_some_iff hbind).mp h
  exact ⟨hcurrent.sameSpec, hcurrent.sameUpstream, hcurrent.protocol,
    hcurrent.sameInterface ▸ hcurrent.reachable, hbind⟩

theorem captured_of_startable (h : Startable around spec)
    (hnone : effectiveUpstream upstreams spec = none) :
    captured around upstreams spec = some ⟨spec, none, around.interfaceFor spec.modemImei⟩ := by
  refine (captured_eq_some_iff h.binds).mpr ⟨rfl, hnone.symm, rfl, h.interface, h.protocol, ?_⟩
  intro upstream hupstream
  cases hupstream

theorem routed_iff :
    Routed upstreams view ↔ (view.spec.upstreamId ≠ "" → ∃ upstream taken : UpstreamSpec,
      upstreams[view.spec.upstreamId]? = some upstream ∧ upstream.enabled ∧
        view.upstream = some taken ∧ taken.address = upstream.address) := by
  refine forall_congr' fun hid => ⟨?_, ?_⟩
  · rintro ⟨upstream, hfound, henabled, hroute⟩
    obtain ⟨taken, htaken⟩ := connectOut_address fun network target => (hroute network target).1
    exact ⟨upstream, taken, hfound, henabled, htaken⟩
  · rintro ⟨upstream, taken, hfound, henabled, htaken, haddress⟩
    refine ⟨upstream, hfound, henabled, fun network target => ?_⟩
    rw [htaken, ← haddress]
    exact connectOut_upstream network target taken view.interface

theorem routed_captured_iff (h : captured around upstreams spec = some view) :
    Routed upstreams view ↔ (spec.upstreamId ≠ "" → HasUpstream upstreams spec.upstreamId) := by
  obtain ⟨rfl, hupstream, -⟩ := captured_eq_some h
  rw [routed_iff, hupstream]
  refine forall_congr' fun hid => ⟨?_, ?_⟩
  · rintro ⟨upstream, -, hfound, henabled, -⟩
    exact ⟨upstream, hfound, henabled⟩
  · rintro ⟨upstream, hfound, henabled⟩
    exact ⟨upstream, upstream, hfound, henabled,
      effectiveUpstream_eq_some.mpr ⟨hfound, henabled⟩, rfl⟩

/-- The second table has the upstream of that id enabled at the address it
has in the first. -/
def SameRoute (upstreams upstreams' : Upstreams) (id : String) : Prop :=
  ∃ upstream upstream' : UpstreamSpec, upstreams[id]? = some upstream ∧
    upstreams'[id]? = some upstream' ∧ upstream'.enabled ∧
      upstream'.address = upstream.address

/-- A listener that chains goes on to under another table exactly if its
upstream has not moved. -/
theorem Routed.table_iff {upstreams' : Upstreams} (h : Routed upstreams view) :
    Routed upstreams' view ↔
      (view.spec.upstreamId ≠ "" → SameRoute upstreams upstreams' view.spec.upstreamId) := by
  rw [routed_iff] at h ⊢
  refine forall_congr' fun hid => ?_
  obtain ⟨upstream, taken, hfound, -, htaken, haddress⟩ := h hid
  constructor
  · rintro ⟨upstream', taken', hfound', henabled', htaken', haddress'⟩
    obtain rfl := some_inj.mp (htaken.symm.trans htaken')
    exact ⟨upstream, upstream', hfound, hfound', henabled', haddress'.symm.trans haddress⟩
  · rintro ⟨upstream₀, upstream', hfound₀, hfound', henabled', haddress'⟩
    obtain rfl := some_inj.mp (hfound.symm.trans hfound₀)
    exact ⟨upstream', taken, hfound', henabled', htaken, haddress.trans haddress'.symm⟩

/-! ## Listeners a call starts -/

namespace Manager

variable {m : Manager}

/-- The listener a wanted instance gets if it has none. -/
def fresh (around : Surroundings) (m : Manager) (entry : String × InstanceSpec) : Option View :=
  if entry.2.enabled ∧ m.listener entry.1 = none
  then captured around m.upstreams entry.2 else none

theorem loops_reconcile (h : m.Sound) (entry : String × InstanceSpec) :
    (m.reconcile around entry.1 entry.2).2.loops
      = m.loops ++ (m.fresh around entry).toList.map Loop.started := by
  rw [reconcile, fresh]
  cases henabled : entry.2.enabled with
  | false => simp
  | true =>
    by_cases hrunning : m.running.contains entry.1
    · have hsome : m.listener entry.1 ≠ none := by
        rw [ne_eq, h.listener_eq_none, ← not_mem_table, not_not]
        exact ExtTreeMap.contains_iff_mem.mp hrunning
      simp [hrunning, hsome]
    · have hnone : m.listener entry.1 = none := h.listener_eq_none.mpr
        (not_mem_table.mp (mt ExtTreeMap.contains_iff_mem.mpr hrunning))
      simp [hrunning, hnone, loops_start]

theorem loops_reconciled (wanted : List (String × InstanceSpec)) :
    ∀ {m : Manager}, m.Sound → (∀ entry ∈ wanted, entry.2.id = entry.1) →
      (wanted.map Prod.fst).Nodup → (m.reconciled around wanted).loops
        = m.loops ++ (wanted.filterMap (m.fresh around)).map Loop.started := by
  induction wanted with
  | nil => exact fun _ _ _ => (append_nil _).symm
  | cons first wanted ih =>
    intro m hsound hids hnodup
    rw [map_cons, nodup_cons] at hnodup
    refine (ih hsound.reconcile (fun entry h => hids entry (mem_cons_of_mem _ h)) hnodup.2).trans ?_
    simp only [filterMap_eq_flatMap_toList, flatMap_cons, map_append]
    rw [loops_reconcile hsound, append_assoc]
    congr 3
    refine flatMap_congr fun entry hentry => ?_
    have hother : ¬(first.1 = entry.1 ∧ first.2.enabled) := fun h =>
      hnodup.1 (mem_map.mpr ⟨entry, hentry, h.1.symm⟩)
    rw [fresh, fresh, upstreams_reconcile, listener_reconcile hsound (hids _ mem_cons_self),
      if_neg hother]

/-- The manager where the call has torn down what it tears down and has
yet to start what it starts. -/
def cleared (m : Manager) : Call → Manager
  | .apply _ instances upstreams => m.prune (wantedOf instances) (upstreamTable upstreams)
  | .stop id | .restart _ id => m.tearDown id
  | .start _ _ | .drainTraffic => m

/-- The instances the call starts a listener for. -/
def starting (m : Manager) : Call → List (Surroundings × InstanceSpec)
  | .start around spec => [(around, spec)]
  | .restart around id => (m.configured id).toList.map (around, ·)
  | .apply around instances _ =>
    let wanted := wantedOf instances
    wanted.toList.filterMap fun (id, spec) =>
      if spec.enabled ∧ m.stale wanted id then some (around, spec) else none
  | .stop _ | .drainTraffic => []

/-- The listeners the call starts. -/
def started (m : Manager) (call : Call) : List View :=
  (m.starting call).filterMap fun (around, spec) =>
    captured around (m.cleared call).upstreams spec

theorem upstreams_call (m : Manager) (call : Call) :
    (m.call call).upstreams = (m.cleared call).upstreams := by
  cases call with
  | start => exact upstreams_start
  | stop | drainTraffic => rfl
  | restart around id =>
    simp only [Manager.call, restart, cleared, stop]
    split <;> simp
  | apply around instances upstreams =>
    simp only [Manager.call, apply, reconcileAll_snd, cleared]
    exact foldlRecOn (motive := fun m' : Manager => m'.upstreams = _) _ _ rfl
      fun m' h entry _ => upstreams_reconcile.trans h

/-- The loops after a call are those it leaves and the listeners it
starts. -/
theorem loops_call (h : m.Sound) (call : Call) :
    (m.call call).loops = (m.cleared call).loops ++ (m.started call).map Loop.started := by
  cases call with
  | start around spec =>
    refine loops_start.trans ?_
    simp [started, starting, cleared, filterMap_eq_flatMap_toList]
  | stop | drainTraffic => exact (append_nil _).symm
  | restart around id =>
    cases hspec : m.configured id with
    | none =>
      have hnone : m.running[id]? = none := by
        rw [configured] at hspec
        split at hspec
        · cases hspec
        · assumption
      simp [Manager.call, restart, cleared, started, starting, tearDown, hspec, hnone]
    | some spec =>
      simp only [Manager.call, restart, hspec, loops_start]
      simp [started, starting, cleared, hspec, stop, filterMap_eq_flatMap_toList]
  | apply around instances upstreams =>
    have hnodup : ((wantedOf instances).toList.map Prod.fst).Nodup := by
      rw [ExtTreeMap.map_fst_toList_eq_keys]
      exact ExtTreeMap.nodup_keys
    have hloops := @loops_reconciled around _ _
      (h.prune (wantedOf instances) (upstreamTable upstreams)) (fun _ => mem_toList_wantedOf) hnodup
    rw [Manager.call, apply, reconcileAll_snd, hloops, started, starting, filterMap_filterMap]
    congr 2
    refine filterMap_congr fun entry _ => ?_
    have hlistener :
        (m.prune (wantedOf instances) (upstreamTable upstreams)).listener entry.1 = none
        ↔ m.stale (wantedOf instances) entry.1 := by
      rw [listener_prune h, ite_eq_left_iff, h.listener_eq_none]
      exact ⟨fun hnone => by_contra fun hkept => hkept (stale_of_running_none (hnone hkept)),
        fun hstale hkept => absurd hstale hkept⟩
    simp only [fresh, hlistener, cleared]
    split <;> rfl

/-! ## Listeners a call leaves -/

/-- What the loops that take in clients serve with. -/
def live (m : Manager) : List View := (m.loops.filter (·.phase.live)).map Loop.view

theorem mem_live : view ∈ m.live ↔
    ∃ (n : Nat) (loop : Loop), m.loops[n]? = some loop ∧ loop.phase.live ∧
      loop.view = view := by
  rw [live, List.mem_map]
  constructor
  · rintro ⟨loop, hmem, hview⟩
    obtain ⟨hmem, hlive⟩ := mem_filter.mp hmem
    obtain ⟨n, hloop⟩ := mem_iff_getElem?.mp hmem
    exact ⟨n, loop, hloop, hlive, hview⟩
  · rintro ⟨n, loop, hloop, hlive, hview⟩
    exact ⟨loop, mem_filter.mpr ⟨mem_of_getElem? hloop, hlive⟩, hview⟩

theorem live_tended {m' : Manager} (h : Tended m m') : m'.live = m.live := by
  have hpairs : ∀ m : Manager, m.live = ((m.loops.map fun loop =>
      (loop.phase.live, loop.view)).filter Prod.fst).map Prod.snd := fun m => by
    rw [live, List.filter_map, List.map_map]
    rfl
  cases h with
  | same => rfl
  | modify hf task =>
    rw [hpairs, hpairs]
    congr 2
    exact map_modify_of_eq (fun loop => Prod.ext (hf.live loop) (hf.view loop)) _ _

theorem live_abort (loop : Loop) : loop.abort.phase.live = false := by
  rw [Loop.abort]
  cases loop.phase <;> rfl

/-- An `apply` of these instances leaves the listener: it is live, and no
stale entry holds it. -/
def Keeps (m : Manager) (wanted : Instances) (view : View) : Prop :=
  ∃ (n : Nat) (loop : Loop), m.loops[n]? = some loop ∧ loop.phase.live ∧
    loop.view = view ∧ (m.task view.spec.id = some n → m.stale wanted view.spec.id = false)

theorem mem_live_prune (h : m.Sound) (wanted : Instances) :
    view ∈ (m.prune wanted upstreams).live ↔ m.Keeps wanted view := by
  simp only [mem_live, getElem?_prune h, map_eq_some_iff]
  constructor
  · rintro ⟨n, _, ⟨loop, hloop, rfl⟩, hlive, hview⟩
    split at hlive
    · rw [live_abort] at hlive
      cases hlive
    next hkept =>
      rw [if_neg hkept] at hview
      subst hview
      refine ⟨n, loop, hloop, hlive, rfl, fun htask => ?_⟩
      rw [← Bool.not_eq_true]
      exact fun hstale => hkept ⟨hstale, htask⟩
  · rintro ⟨n, loop, hloop, hlive, rfl, hkept⟩
    have hneg : ¬(m.stale wanted loop.spec.id ∧ m.task loop.spec.id = some n) := by
      rintro ⟨hstale, htask⟩
      cases hstale.symm.trans (hkept htask)
    exact ⟨n, loop, ⟨loop, hloop, if_neg hneg⟩, hlive, rfl⟩

theorem live_tearDown {id : String} (h : view ∈ (m.tearDown id).live) : view ∈ m.live := by
  obtain ⟨n, _, hloops, hlive, hview⟩ := mem_live.mp h
  rw [getElem?_tearDown] at hloops
  obtain ⟨loop, hloop, rfl⟩ := map_eq_some_iff.mp hloops
  split at hlive
  · rw [live_abort] at hlive
    cases hlive
  next hkept =>
    rw [if_neg hkept] at hview
    exact mem_live.mpr ⟨n, loop, hloop, hlive, hview⟩

theorem mem_live_call (h : m.Sound) (call : Call) :
    view ∈ (m.call call).live ↔ view ∈ (m.cleared call).live ∨ view ∈ m.started call := by
  have hfresh : ((m.started call).map Loop.started).filter (·.phase.live)
      = (m.started call).map Loop.started := by
    refine filter_eq_self.mpr fun loop hloop => ?_
    obtain ⟨view, -, rfl⟩ := mem_map.mp hloop
    rfl
  rw [live, loops_call h, filter_append, map_append, mem_append, hfresh, List.map_map]
  exact or_congr_right (by simp [Loop.started, Loop.view])

theorem views_cleared (m : Manager) (call : Call) : (m.cleared call).views = m.views := by
  cases call <;> simp [cleared]

theorem mem_views_call (h : m.Sound) (call : Call) :
    view ∈ (m.call call).views ↔ view ∈ m.views ∨ view ∈ m.started call := by
  rw [views, loops_call h, map_append, mem_append, List.map_map, ← views_cleared m call]
  exact or_congr_right (by simp [Loop.started, Loop.view])

end Manager

/-! ## Every run -/

/-- Every instance the call starts a listener for finds the upstream it
names. -/
def FindsUpstreams (m : Manager) (call : Call) : Prop :=
  ∀ asked ∈ m.starting call, Startable asked.1 asked.2 → asked.2.upstreamId ≠ "" →
    HasUpstream (m.cleared call).upstreams asked.2.upstreamId

/-- The upstream of every listener an `apply` keeps stays where it is. -/
def KeepsUpstreams (m : Manager) : Call → Prop
  | .apply _ instances upstreams => ∀ view, m.Keeps (wantedOf instances) view →
      view.spec.upstreamId ≠ "" →
        SameRoute m.upstreams (upstreamTable upstreams) view.spec.upstreamId
  | _ => True

def FindsUpstream (s : System) : Label → Prop
  | .call call => FindsUpstreams s.manager call ∧ KeepsUpstreams s.manager call
  | _ => True

namespace System

variable {s : System} {label : Label} {m : Manager} {call : Call}

/-- Every listener that takes in clients routes them as the table says. -/
def Routes (s : System) : Prop := ∀ view ∈ s.manager.live, Routed s.manager.upstreams view

theorem routed_started_iff :
    (∀ view ∈ m.started call, Routed (m.cleared call).upstreams view) ↔ FindsUpstreams m call := by
  constructor
  · intro hrouted asked hasked hstartable hid
    by_contra hlost
    -- without its upstream the listener starts, and its route is a direct one
    have hnone : effectiveUpstream (m.cleared call).upstreams asked.2 = none :=
      eq_none_iff_forall_ne_some.mpr fun upstream h =>
        hlost ⟨upstream, effectiveUpstream_eq_some.mp h⟩
    have hview := captured_of_startable hstartable hnone
    exact hlost ((routed_captured_iff hview).mp
      (hrouted _ (mem_filterMap.mpr ⟨asked, hasked, hview⟩)) hid)
  · intro hfinds view hview
    obtain ⟨asked, hasked, hview⟩ := mem_filterMap.mp hview
    rw [routed_captured_iff hview]
    exact hfinds asked hasked (captured_eq_some hview).2.2

theorem routed_cleared_iff (hsound : m.Sound) (h : ∀ view ∈ m.live, Routed m.upstreams view) :
    (∀ view ∈ (m.cleared call).live, Routed (m.cleared call).upstreams view) ↔
      KeepsUpstreams m call := by
  cases call with
  | start | drainTraffic => exact iff_of_true h trivial
  | stop id | restart around id =>
    refine iff_of_true (fun view hview => ?_) trivial
    rw [cleared, upstreams_tearDown]
    exact h view (live_tearDown hview)
  | apply around instances upstreams =>
    refine forall_congr' fun view => ?_
    rw [cleared, mem_live_prune hsound, upstreams_prune]
    refine imp_congr_right fun hkeeps => Routed.table_iff (h view ?_)
    obtain ⟨n, loop, hloop, hlive, hview, -⟩ := hkeeps
    exact mem_live.mpr ⟨n, loop, hloop, hlive, hview⟩

/-- One step: the listeners go on chaining exactly if those that come do
and those that stay can. -/
theorem routes_step (hsound : s.manager.Sound) (h : s.Routes) :
    (s.step label).Routes ↔ FindsUpstream s label := by
  obtain ⟨events, hsteps⟩ := s.exists_steps label
  cases label with
  | loop | client =>
    have htended := hsteps.manager.resolve_left (by simp)
    refine iff_of_true ?_ trivial
    rw [Routes, live_tended htended, upstreams_tended htended]
    exact h
  | call call =>
    change (∀ view ∈ (s.manager.call call).live, Routed (s.manager.call call).upstreams view) ↔ _
    simp only [mem_live_call hsound, upstreams_call, or_imp, forall_and]
    rw [routed_cleared_iff hsound h, routed_started_iff, and_comm]
    rfl

theorem routes_iff (labels : List Label) :
    (∀ front, front <+: labels → (after front).Routes) ↔
      Along System.step FindsUpstream .new labels := by
  induction labels using reverseRecOn with
  | nil =>
    refine iff_of_true (fun front hfront => ?_) trivial
    obtain rfl := prefix_nil.mp hfront
    exact fun view h => absurd h not_mem_nil
  | append_singleton labels label ih =>
    simp only [prefix_concat_iff, or_imp, forall_and, forall_eq]
    rw [ih, Along.snoc, and_comm, after, runFrom_snoc]
    refine and_congr_right fun halong => routes_step (sound_after labels) ?_
    exact ih.mpr halong labels prefix_rfl

end System

/-! ## What can be seen of it -/

/-- The connection goes to the upstream the instance names, where a table of
the run had it enabled, and tells it the target. -/
def Event.Chained (labels : List Label) : Event → Prop
  | .dialled _ view _ attempt => view.spec.upstreamId ≠ "" →
      ∃ (front : List Label) (upstream : UpstreamSpec), front <+: labels ∧
        (System.after front).manager.upstreams[view.spec.upstreamId]? = some upstream ∧
          upstream.enabled ∧ attempt = ⟨.upstream upstream.address, view.interface⟩
  | .opened _ view target server => view.spec.upstreamId ≠ "" →
      connectRequest target <:+ server.written
  | .relayed _ _ _ => True

/-- The connection was made by a client of one of these listeners. -/
def Event.Explained (views : List View) : Event → Prop
  | .dialled _ view target attempt => view ∈ views ∧
      ∃ network, attempt ∈ (connectOut network target view.upstream view.interface).2
  | .opened _ view target server => view ∈ views ∧
      ∃ network, (connectOut network target view.upstream view.interface).1 = .done server
  | .relayed _ _ _ => True

theorem Event.Explained.mono {more : List View} (h : ∀ view ∈ views, view ∈ more)
    (he : event.Explained views) : event.Explained more := by
  cases event with
  | dialled loop view target attempt | opened loop view target server => exact ⟨h view he.1, he.2⟩
  | relayed loop up bytes => trivial

theorem Event.Explained.chained {labels : List Label} (h : ∀ view ∈ views, ∃ front,
    front <+: labels ∧ Routed (System.after front).manager.upstreams view)
    (he : event.Explained views) : event.Chained labels := by
  cases event with
  | dialled loop view target attempt =>
    obtain ⟨hmem, network, hattempt⟩ := he
    intro hid
    obtain ⟨front, hfront, hrouted⟩ := h view hmem
    obtain ⟨upstream, hfound, henabled, hroute⟩ := hrouted hid
    rw [(hroute network target).1, mem_singleton] at hattempt
    exact ⟨front, upstream, hfront, hfound, henabled, hattempt⟩
  | opened loop view target server =>
    obtain ⟨hmem, network, hopen⟩ := he
    intro hid
    obtain ⟨front, -, hrouted⟩ := h view hmem
    obtain ⟨upstream, -, -, hroute⟩ := hrouted hid
    exact (hroute network target).2 server hopen
  | relayed loop up bytes => trivial

theorem Move.explained {client : Client} {stage : Stage} {events : List Event}
    (h : Move client stage events) (hview : client.view ∈ views) :
    ∀ event ∈ events, event.Explained views := by
  intro event hevent
  cases h with
  | stay | fail | arrive | negotiated => exact absurd hevent not_mem_nil
  | dial _ network =>
    obtain ⟨attempt, hattempt, rfl⟩ := mem_map.mp hevent
    exact ⟨hview, network, hattempt⟩
  | opened _ hopen =>
    rw [mem_singleton.mp hevent]
    exact ⟨hview, _, hopen⟩
  | relay =>
    rw [mem_singleton.mp hevent]
    trivial

namespace System

variable {s : System}

structure Traced (s : System) : Prop where
  clients : ∀ client ∈ s.clients, client.view ∈ s.manager.views
  events : ∀ event ∈ s.events, event.Explained s.manager.views

theorem traced_step (hsound : s.manager.Sound) (h : s.Traced) (label : Label) :
    (s.step label).Traced := by
  obtain ⟨new, hsteps⟩ := s.exists_steps label
  have hmore : ∀ view ∈ s.manager.views, view ∈ (s.step label).manager.views := by
    intro view hmem
    rcases hsteps.manager with ⟨call, rfl⟩ | htended
    · exact (mem_views_call hsound call).mpr (.inl hmem)
    · rwa [views_tended htended]
  refine ⟨fun client hmem => hmore _ ?_, fun event hmem => ?_⟩
  · cases hsteps.clients client hmem with
    | kept hmem => exact h.clients client hmem
    | accepted hloop => exact mem_map_of_mem (mem_of_getElem? hloop)
    | @moved old hold => exact h.clients old hold
  · rw [hsteps.events, mem_append] at hmem
    rcases hmem with hmem | hmem
    · exact (h.events event hmem).mono hmore
    · obtain ⟨client, hclient, stage, hmove⟩ := hsteps.shown event hmem
      exact (hmove.explained (h.clients client hclient) event hmem).mono hmore

theorem traced_after (labels : List Label) : (after labels).Traced := by
  have hboth : (after labels).manager.Sound ∧ (after labels).Traced :=
    runFrom_invariant (I := fun s : System => s.manager.Sound ∧ s.Traced)
      (fun _ label h => ⟨sound_step label h.1, traced_step h.1 h.2 label⟩) labels
      ⟨sound_new, by simp [System.new], by simp [System.new]⟩
  exact hboth.2

end System

/-- Every loop took in clients once. -/
theorem exists_live (labels : List Label) : ∀ view ∈ (System.after labels).manager.views,
    ∃ front, front <+: labels ∧ view ∈ (System.after front).manager.live := by
  refine runFrom_history (I := fun labels (s : System) => ∀ view ∈ s.manager.views,
    ∃ front, front <+: labels ∧ view ∈ (System.after front).manager.live)
    (fun view h => absurd h not_mem_nil) (fun labels label ih view hview => ?_) labels
  have hbefore : view ∈ (System.after labels).manager.views → ∃ front,
      front <+: labels ++ [label] ∧ view ∈ (System.after front).manager.live := fun hview => by
    obtain ⟨front, hfront, hlive⟩ := ih view hview
    exact ⟨front, hfront.trans (prefix_append _ _), hlive⟩
  obtain ⟨events, hsteps⟩ := (System.after labels).exists_steps label
  rcases hsteps.manager with ⟨call, rfl⟩ | htended
  · rcases (mem_views_call (System.sound_after labels) call).mp hview with hview | hstarted
    · exact hbefore hview
    · refine ⟨_, prefix_rfl, ?_⟩
      rw [System.after, runFrom_snoc]
      exact (mem_live_call (System.sound_after labels) call).mpr (.inr hstarted)
  · exact hbefore (views_tended htended ▸ hview)

/-- Every listener whose instance names an upstream always connects only to
that upstream as the table has it and tells it the client's target, exactly if
every listener that is started finds the upstream its instance names and no
`apply` moves, disables or drops the upstream of a listener it keeps; and then
no connection that was made bypasses one. -/
theorem upstream_never_bypassed_iff (labels : List Label) :
    ((∀ front, front <+: labels → (System.after front).Routes) ↔
        Along System.step FindsUpstream .new labels) ∧
      (Along System.step FindsUpstream .new labels →
        ∀ event ∈ (System.after labels).events, event.Chained labels) := by
  refine ⟨System.routes_iff labels, fun halong event hmem => ?_⟩
  refine ((System.traced_after labels).events event hmem).chained fun view hview => ?_
  obtain ⟨front, hfront, hlive⟩ := exists_live labels view hview
  exact ⟨front, hfront, (System.routes_iff labels).mpr halong front hfront view hlive⟩

def askedHost : Target := .domain "example.test" 443

/-- The manager applies the chained instance with these upstreams, and a
client asks for the host. -/
def asksThrough (upstreams : List UpstreamSpec) : List Label :=
  [.call (.apply (bindsOn "wwan0") [chainedInstance] upstreams),
    .loop 0 .wake, .loop 0 .accept,
    .client 0 (.arrive [greeting [authNone] ++ connectBytes 0 askedHost]),
    .client 0 .poll, .client 0 (.dial ⟨fun _ => .ok .fresh⟩)]

/-- With the upstream disabled, or absent, the client is connected straight
to the host. -/
theorem lostUpstream_bypassed :
    (∀ upstreams ∈ [[upstreamAt "10.0.0.1:1080" false], []],
      (System.after (asksThrough upstreams)).events =
        [.dialled 0 ⟨chainedInstance, none, some "wwan0"⟩ askedHost
          ⟨.target askedHost, some "wwan0"⟩]) ∧
      ∀ labels, ¬(Event.dialled 0 ⟨chainedInstance, none, some "wwan0"⟩ askedHost
        ⟨.target askedHost, some "wwan0"⟩).Chained labels := by
  refine ⟨by decide +kernel, fun labels h => ?_⟩
  obtain ⟨_, _, _, _, _, hattempt⟩ := h (by decide)
  cases hattempt

end VodogeEdge.Proxy
