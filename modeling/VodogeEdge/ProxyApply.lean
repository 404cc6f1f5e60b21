import VodogeEdge.ProxySystem

/-!
# Applying a configuration

`apply` is meant to make the device what the configuration says, whatever
it was before. What it keeps it keeps as it is: a listener survives when
`differs` sees no change, and goes on with the upstream and the interface
it was started with.
-/

namespace VodogeEdge.Proxy

open Std List ExtTreeMap Loop Manager Option

/-! ## Live listeners -/

def Loop.serves (id : String) (loop : Loop) : Bool := loop.phase.live && loop.spec.id = id

namespace Manager

def serving (m : Manager) (id : String) : List View :=
  (m.loops.filter (Loop.serves id)).map Loop.view

variable {m m' : Manager} {around : Surroundings} {id id' : String} {spec : InstanceSpec}

theorem length_serving : (m.serving id).length = m.loops.countP (serves id) := by
  rw [serving, length_map, countP_eq_length_filter]

def Balanced (m m' : Manager) : Prop :=
  ∀ id, (m'.serving id).length + (m.listener id).toList.length
    = (m.serving id).length + (m'.listener id).toList.length

theorem Balanced.refl (m : Manager) : Balanced m m := fun _ => rfl

theorem Balanced.trans {m'' : Manager} (h : Balanced m m') (h' : Balanced m' m'') :
    Balanced m m'' := by
  intro id
  have := h id
  have := h' id
  omega

theorem balanced_tearDown (h : m.Sound) (id' : String) : Balanced m (m.tearDown id') := by
  intro id
  rw [listener_tearDown h]
  cases hr : m.running[id']? with
  | none =>
    have hsame : m.tearDown id' = m := by simp [tearDown, hr]
    rw [hsame]
    split
    next heq => rw [← heq, h.listener_eq_none.mpr hr]
    · rfl
  | some running =>
    obtain ⟨hid, loop, hloop, hspec, -, hlive⟩ := h id' running hr
    have hloops : (m.tearDown id').loops = m.loops.modify running.task Loop.abort := by
      simp [tearDown, hr]
    have hcount := countP_modify (serves id) Loop.abort hloop
    have hserves : loop.serves id = decide (id' = id) := by
      rw [serves, hlive, Bool.true_and, hspec, hid]
    have haborted : loop.abort.serves id = false := by
      rw [Loop.abort]
      cases hphase : loop.phase <;> rfl
    rw [hserves, haborted] at hcount
    rw [length_serving, length_serving, hloops]
    split
    next heq =>
      subst heq
      have hlistener : m.listener id' = some loop.view := by
        rw [listener, hr, bind_some, hloop, map_some]
      rw [hlistener]
      simpa using hcount
    next hne => simpa [hne] using hcount

theorem balanced_start (h : m.Sound) (hnone : m.running[spec.id]? = none) :
    Balanced m (m.start around spec).2 := by
  intro id
  rw [listener_start h, length_serving, length_serving]
  rw [← h.listener_eq_none] at hnone
  rw [start, captured]
  cases prepare around m.upstreams spec with
  | error reason => simp
  | ok taken =>
    by_cases heq : spec.id = id
    · subst heq
      rw [hnone]
      simp [serves, Phase.live]
    · simp [serves, heq]

theorem Sound.mem_serving (h : m.Sound) {view : View} (hview : m.listener id = some view) :
    view ∈ m.serving id := by
  rw [listener, bind_eq_some_iff] at hview
  obtain ⟨running, hr, hview⟩ := hview
  obtain ⟨loop, hloop, rfl⟩ := map_eq_some_iff.mp hview
  obtain ⟨hid, loop', hloop', hspec, -, hlive⟩ := h id running hr
  obtain rfl : loop' = loop := some_inj.mp (hloop'.symm.trans hloop)
  refine mem_map_of_mem (mem_filter.mpr ⟨mem_of_getElem? hloop, ?_⟩)
  rw [serves, hlive, hspec, hid]
  exact decide_eq_true rfl

theorem Sound.serving_eq (h : m.Sound)
    (hlength : (m.serving id).length = (m.listener id).toList.length) :
    m.serving id = (m.listener id).toList := by
  cases hlistener : m.listener id with
  | none =>
    rw [hlistener] at hlength
    exact length_eq_zero_iff.mp hlength
  | some view =>
    rw [hlistener] at hlength
    obtain ⟨only, honly⟩ := length_eq_one_iff.mp hlength
    have hmem := h.mem_serving hlistener
    rw [honly, mem_singleton] at hmem
    rw [honly, hmem]
    rfl

/-! ## What is applied -/

section
variable {instances : List InstanceSpec} {upstreams : List UpstreamSpec}

theorem stale_of_running_none {wanted : Instances}
    (h : m.running[id]? = none) : m.stale wanted id := by
  rw [stale, h]
  cases wanted[id]? <;> rfl

theorem Sound.exists_listener (h : m.Sound) {wanted : Instances}
    (hkept : m.stale wanted id = false) : ∃ view, m.listener id = some view := by
  refine ne_none_iff_exists'.mp fun hnone => ?_
  rw [stale_of_running_none (h.listener_eq_none.mp hnone)] at hkept
  cases hkept

/-- What `apply` makes of an id: a wanted and enabled instance keeps its
listener unless it is stale, and gets a new one if it has none. -/
theorem listener_apply (h : m.Sound) :
    (m.apply around instances upstreams).2.listener id =
      (wantedOf instances)[id]?.bind fun spec =>
        if spec.enabled then
          (if m.stale (wantedOf instances) id then none else m.listener id).or
            (captured around (upstreamTable upstreams) spec)
        else none := by
  have hsound := h.prune (wantedOf instances) (upstreamTable upstreams)
  have hnodup : ((wantedOf instances).toList.map Prod.fst).Nodup := by
    rw [map_fst_toList_eq_keys]
    exact nodup_keys
  obtain ⟨hmem, hnot⟩ := @listener_reconciled around (wantedOf instances).toList _ hsound
    (fun _ => mem_toList_wantedOf) hnodup id
  rw [apply, reconcileAll_snd]
  cases hwanted : (wantedOf instances)[id]? with
  | none =>
    have hstale : m.stale (wantedOf instances) id := by rw [stale, hwanted]
    have hkeys : id ∉ (wantedOf instances).toList.map Prod.fst := by
      rw [map_fst_toList_eq_keys, ExtTreeMap.mem_keys]
      exact not_mem_table.mpr hwanted
    rw [hnot hkeys, listener_prune h, if_pos hstale]
    rfl
  | some spec =>
    rw [hmem spec (mem_toList_iff_getElem?_eq_some.mpr hwanted), listener_prune h,
      upstreams_prune, bind_some]
    split
    · rfl
    next henabled =>
      cases hr : m.running[id]? with
      | none => rw [if_pos (stale_of_running_none hr)]
      | some running =>
        have hstale : m.stale (wantedOf instances) id := by
          rw [stale, hwanted, hr]
          simp [henabled]
        rw [if_pos hstale]

theorem balanced_apply (h : m.Sound) : Balanced m (m.apply around instances upstreams).2 := by
  refine (apply_induction (P := fun m' => m'.Sound ∧ Balanced m m') (fun _ h => h) ?_ ?_
    ⟨h, Balanced.refl m⟩).2
  · exact fun m' id h => ⟨h.1.tearDown id, h.2.trans (balanced_tearDown h.1 id)⟩
  · exact fun m' spec hfree h => ⟨h.1.start, h.2.trans (balanced_start h.1 hfree)⟩

end

end Manager

/-! ## A listener that would be started now -/

/-- The listener has the wanted instance, the upstream the table now has
for it and the interface the resolver now names, and speaks what this
build speaks. -/
structure Current (around : Surroundings) (upstreams : Upstreams)
    (spec : InstanceSpec) (view : View) : Prop where
  sameSpec : view.spec = spec
  sameUpstream : view.upstream = effectiveUpstream upstreams spec
  sameInterface : view.interface = around.interfaceFor spec.modemImei
  reachable : view.interface.isSome
  protocol : spec.protocol = supportedProtocol
  upstreamProtocol : ∀ upstream, view.upstream = some upstream →
    upstream.protocol = supportedProtocol

variable {spec : InstanceSpec} {around : Surroundings} {upstreams : Upstreams}

theorem unsupportedProtocol_eq_none {debug : String → String} {upstream : Option UpstreamSpec} :
    unsupportedProtocol debug spec upstream = none ↔ spec.protocol = supportedProtocol ∧
      ∀ found, upstream = some found → found.protocol = supportedProtocol := by
  by_cases hspec : spec.protocol = supportedProtocol
  · cases upstream with
    | none | some => simp [unsupportedProtocol, hspec]
  · simp [unsupportedProtocol, hspec]

theorem captured_eq_some_iff (hbind : ∃ bound, around.bind spec = .ok bound) {view : View} :
    captured around upstreams spec = some view ↔ Current around upstreams spec view := by
  obtain ⟨bound, hbind⟩ := hbind
  rw [captured, prepare, hbind]
  cases hprotocol : unsupportedProtocol around.debug spec (effectiveUpstream upstreams spec) with
  | some reason =>
    refine iff_of_false (by simp) fun h => ?_
    have : unsupportedProtocol around.debug spec (effectiveUpstream upstreams spec) = none :=
      unsupportedProtocol_eq_none.mpr ⟨h.protocol, h.sameUpstream ▸ h.upstreamProtocol⟩
    rw [hprotocol] at this
    cases this
  | none =>
    obtain ⟨hspec, hupstream⟩ := unsupportedProtocol_eq_none.mp hprotocol
    cases hinterface : around.interfaceFor spec.modemImei with
    | none =>
      refine iff_of_false (by simp) fun h => ?_
      have hnone := h.reachable
      rw [h.sameInterface, hinterface] at hnone
      cases hnone
    | some interface =>
      constructor
      · intro h
        obtain rfl := some_inj.mp h
        exact ⟨rfl, rfl, hinterface.symm, rfl, hspec, hupstream⟩
      · intro h
        obtain ⟨viewSpec, viewUpstream, viewInterface⟩ := view
        obtain rfl : viewSpec = spec := h.sameSpec
        obtain rfl : viewUpstream = _ := h.sameUpstream
        obtain rfl : viewInterface = some interface := h.sameInterface.trans hinterface
        rfl

/-- Of its surroundings only the resolver decides what is current. -/
theorem current_congr {fresh : Surroundings} (hresolver : fresh.interfaceFor = around.interfaceFor)
    {view : View} : Current around upstreams spec view ↔ Current fresh upstreams spec view := by
  constructor
  · intro h
    exact { h with sameInterface := by rw [h.sameInterface, hresolver] }
  · intro h
    exact { h with sameInterface := by rw [h.sameInterface, hresolver] }

/-- Two surroundings with one resolver in which the instance can be bound
start the same listener. -/
theorem captured_congr {fresh : Surroundings} (hresolver : fresh.interfaceFor = around.interfaceFor)
    (hbind : ∃ bound, around.bind spec = .ok bound)
    (hbind' : ∃ bound, fresh.bind spec = .ok bound) :
    captured around upstreams spec = captured fresh upstreams spec := by
  refine Option.ext fun view => ?_
  rw [captured_eq_some_iff hbind, captured_eq_some_iff hbind', current_congr hresolver]

/-! ## Against a fresh manager -/

/-- The live listeners of every id are the one the manager knows. -/
def Manager.NoneOrphaned (m : Manager) : Prop := ∀ id, m.serving id = (m.listener id).toList

/-- Every listener `apply` would keep is the one it would start. -/
def Manager.KeptCurrent (m : Manager) (around : Surroundings) (instances : List InstanceSpec)
    (upstreams : List UpstreamSpec) : Prop :=
  ∀ id spec view, (Manager.wantedOf instances)[id]? = some spec →
    m.stale (Manager.wantedOf instances) id = false → m.listener id = some view →
    Current around (Manager.upstreamTable upstreams) spec view

/-- Every bind that `apply` tries succeeds. It tries none for a listener it
keeps, whose port it holds already. -/
def Manager.BindsNeeded (m : Manager) (around : Surroundings) (instances : List InstanceSpec) :
    Prop :=
  ∀ id spec, (Manager.wantedOf instances)[id]? = some spec → spec.enabled →
    m.stale (Manager.wantedOf instances) id → ∃ bound, around.bind spec = .ok bound

/-- The same live listeners under every id, and the manager knows them. -/
def Manager.SameListeners (m m' : Manager) : Prop :=
  ∀ id, m.serving id = m'.serving id ∧ m.listener id = m'.listener id

namespace Manager

variable {m : Manager} {fresh : Surroundings} {instances : List InstanceSpec}
  {upstreams : List UpstreamSpec}

theorem noneOrphaned_iff (h : m.Sound) :
    m.NoneOrphaned ↔ ∀ id, (m.serving id).length = (m.listener id).toList.length :=
  ⟨fun hnone id => congrArg List.length (hnone id), fun hlength id => h.serving_eq (hlength id)⟩

theorem noneOrphaned_apply_iff (h : m.Sound) :
    (m.apply around instances upstreams).2.NoneOrphaned ↔ m.NoneOrphaned := by
  have hsound : (m.apply around instances upstreams).2.Sound := h.call (.apply around _ _)
  rw [noneOrphaned_iff h, noneOrphaned_iff hsound]
  refine forall_congr' fun id => ?_
  have := @balanced_apply m around instances upstreams h id
  omega

theorem noneOrphaned_new : Manager.new.NoneOrphaned := fun id => by
  simp [serving, listener, Manager.new]

/-- The listeners the manager knows are those of a fresh one exactly if
those it keeps are current. -/
theorem listener_apply_eq_iff (h : m.Sound) (hresolver : fresh.interfaceFor = around.interfaceFor)
    (hbind : m.BindsNeeded around instances) (hfresh : Manager.new.BindsNeeded fresh instances) :
    (∀ id, (m.apply around instances upstreams).2.listener id
        = (Manager.new.apply fresh instances upstreams).2.listener id) ↔
      m.KeptCurrent around instances upstreams := by
  have hnew : ∀ id, Manager.new.stale (wantedOf instances) id := fun id =>
    stale_of_running_none (by simp [Manager.new])
  have hone : ∀ id spec, (wantedOf instances)[id]? = some spec →
      ((m.apply around instances upstreams).2.listener id
          = (Manager.new.apply fresh instances upstreams).2.listener id ↔
        ∀ view, m.stale (wantedOf instances) id = false → m.listener id = some view →
          Current around (upstreamTable upstreams) spec view) := by
    intro id spec hwanted
    rw [listener_apply h, listener_apply sound_new, hwanted, bind_some, bind_some, hnew, if_pos rfl]
    cases henabled : spec.enabled with
    | false =>
      refine iff_of_true rfl fun view hkept hview => ?_
      cases hr : m.running[id]? with
      | none => rw [stale_of_running_none hr] at hkept; cases hkept
      | some running => simp [stale, hwanted, hr, henabled] at hkept
    | true =>
      have hbound := hfresh id spec hwanted henabled (hnew id)
      cases hkept : m.stale (wantedOf instances) id with
      | true =>
        rw [captured_congr hresolver (hbind id spec hwanted henabled hkept) hbound]
        simp
      | false =>
        -- the kept listener is compared with the one the fresh manager binds
        obtain ⟨view, hview⟩ := h.exists_listener hkept
        simp only [hview, Bool.false_eq_true, if_false, if_true, some_or, none_or, some_inj,
          forall_true_left, forall_eq']
        rw [current_congr hresolver, ← captured_eq_some_iff hbound]
        exact eq_comm
  constructor
  · intro hall id spec view hwanted hkept hview
    exact (hone id spec hwanted).mp (hall id) view hkept hview
  · intro hcurrent id
    cases hwanted : (wantedOf instances)[id]? with
    | none => rw [listener_apply h, listener_apply sound_new, hwanted, bind_none, bind_none]
    | some spec =>
      exact (hone id spec hwanted).mpr fun view hkept hview =>
        hcurrent id spec view hwanted hkept hview

end Manager

/-- After any run, `apply` leaves the listeners a fresh manager would have
for the same call, provided every bind it needs succeeds, exactly if no
live listener is unknown to the manager and every listener it keeps is
the one it would start now. -/
theorem apply_forgets_iff (labels : List Label) (around fresh : Surroundings)
    (instances : List InstanceSpec) (upstreams : List UpstreamSpec)
    (hresolver : fresh.interfaceFor = around.interfaceFor)
    (hbind : (System.after labels).manager.BindsNeeded around instances)
    (hbind' : Manager.new.BindsNeeded fresh instances) :
    ((System.after labels).manager.apply around instances upstreams).2.SameListeners
        (Manager.new.apply fresh instances upstreams).2 ↔
      (System.after labels).manager.NoneOrphaned ∧
        (System.after labels).manager.KeptCurrent around instances upstreams := by
  have hsound := System.sound_after labels
  have hfresh : (Manager.new.apply fresh instances upstreams).2.NoneOrphaned :=
    (noneOrphaned_apply_iff sound_new).mpr noneOrphaned_new
  rw [← listener_apply_eq_iff hsound hresolver hbind hbind', ← noneOrphaned_apply_iff hsound]
  constructor
  · intro hsame
    refine ⟨fun id => ?_, fun id => (hsame id).2⟩
    rw [(hsame id).1, hfresh, (hsame id).2]
  · rintro ⟨hnone, hlistener⟩ id
    exact ⟨by rw [hnone, hfresh, hlistener], hlistener id⟩

/-! ## A listener that is kept too long -/

def chainedInstance : InstanceSpec where
  id := "inst-1"
  name := "exit"
  modemImei := "867018069509705"
  protocol := supportedProtocol
  listenAddr := "0.0.0.0"
  listenPort := 1080
  authEnabled := false
  username := ""
  password := ""
  upstreamId := "up-1"
  enabled := true

def upstreamAt (address : String) (enabled : Bool) : UpstreamSpec where
  id := "up-1"
  name := "upstream"
  address := address
  protocol := supportedProtocol
  username := ""
  password := ""
  enabled := enabled

def bindsOn (interface : String) : Surroundings where
  debug text := text
  interfaceFor _ := some interface
  bind spec := .ok (some spec.address)

/-- The system gives no port away twice. -/
def portTaken (interface : String) : Surroundings :=
  { bindsOn interface with bind := fun _ => .error "Address already in use" }

/-- A listener that is kept, by a system that would not bind its port
again. -/
theorem apply_forgets_portTaken :
    ((System.after [.call (.apply (bindsOn "wwan0") [chainedInstance] [])]).manager.apply
        (portTaken "wwan0") [chainedInstance] []).2.SameListeners
        (Manager.new.apply (bindsOn "wwan0") [chainedInstance] []).2 ↔
      (System.after [.call (.apply (bindsOn "wwan0") [chainedInstance] [])]).manager.NoneOrphaned ∧
        (System.after [.call (.apply (bindsOn "wwan0") [chainedInstance] [])]).manager.KeptCurrent
          (portTaken "wwan0") [chainedInstance] [] := by
  refine apply_forgets_iff _ _ _ _ _ rfl (fun id spec hwanted _ hstale => ?_)
    fun _ _ _ _ _ => ⟨_, rfl⟩
  obtain ⟨rfl, hmem⟩ := id_of_wantedOf hwanted
  rw [mem_singleton.mp hmem] at hstale
  exact absurd hstale (by decide +kernel)

/-- An upstream that moves, or a modem that comes back on another
interface, does not reach a listener that is kept. -/
theorem keptListener_outdated :
    let first := (System.after [.call (.apply (bindsOn "wwan0") [chainedInstance]
      [upstreamAt "10.0.0.1:1080" true])]).manager
    let moved := [upstreamAt "10.0.0.2:1080" true]
    let same := [upstreamAt "10.0.0.1:1080" true]
    ¬(first.apply (bindsOn "wwan0") [chainedInstance] moved).2.SameListeners
        (Manager.new.apply (bindsOn "wwan0") [chainedInstance] moved).2 ∧
      ¬(first.apply (bindsOn "wwan1") [chainedInstance] same).2.SameListeners
        (Manager.new.apply (bindsOn "wwan1") [chainedInstance] same).2 := by
  refine ⟨fun h => ?_, fun h => ?_⟩
  · exact absurd (h "inst-1").2 (by decide +kernel)
  · exact absurd (h "inst-1").2 (by decide +kernel)

end VodogeEdge.Proxy
