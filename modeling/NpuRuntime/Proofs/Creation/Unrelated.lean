import NpuRuntime.Proofs.Creation.Steps
import NpuRuntime.Proofs.Creation.Wanting
import NpuRuntime.Proofs.Environment.Reading
import NpuRuntime.Proofs.Query.Agreeing

/-! # What has no influence
The changes read a few lines of the environment, the hooks before the start, the devices and their
rules. Two documents that agree in those get the same entries, through the same calls, however
much else is different in them. -/
namespace NpuRuntime.Creation

open Query NpuRuntime.Bundle

variable {σ : Type} {h : Host} {s : Settings} {svc : Service σ}

/-- The names that are looked up while a document is changed. -/
def namesRead : List String :=
  [Environment.visibleDevices, Environment.runtimeOptions, Environment.sliceTemplate,
    Environment.hostName]

/-- A line with one of these names, or the marker itself. -/
def isRead (l : String) : Bool :=
  namesRead.any (Environment.isNamed · l) || l == Environment.pluginMarker

def readLines (env : Environment.Lines) : Environment.Lines := env.filter isRead

theorem sees_isRead {name : String} (hn : name ∈ namesRead) : Environment.Sees isRead name := by
  intro l hl
  rw [isRead, Bool.or_eq_true]
  exact .inl (List.any_eq_true.mpr ⟨name, hn, hl⟩)

theorem isRead_pluginMarker : isRead Environment.pluginMarker = true := by decide

theorem mem_visible : Environment.visibleDevices ∈ namesRead := List.mem_cons_self

theorem mem_options : Environment.runtimeOptions ∈ namesRead := .tail _ (.head _)

theorem get?_of_read {env env' : Environment.Lines} (he : readLines env = readLines env')
    {name : String} (hn : name ∈ namesRead) :
    Environment.get? env name = Environment.get? env' name := by
  have hsees := sees_isRead hn
  calc Environment.get? env name = Environment.get? (readLines env) name :=
        (Environment.get?_filter hsees env).symm
    _ = Environment.get? (readLines env') name := by rw [he]
    _ = Environment.get? env' name := Environment.get?_filter hsees env'

theorem any_of_read {env env' : Environment.Lines} (he : readLines env = readLines env')
    {name : String} (hn : name ∈ namesRead) :
    env.any (Environment.isNamed name) = env'.any (Environment.isNamed name) := by
  rw [Environment.any_isNamed, Environment.any_isNamed, get?_of_read he hn]

/-- The documents agree in everything that the changes look at. -/
structure Akin (u v : Spec) : Prop where
  lines : readLines u.env = readLines v.env
  prestart : u.prestart = v.prestart
  devices : u.devices = v.devices
  rules : u.rules = v.rules

namespace Akin

variable {u v : Spec}

theorem optionsOf_eq (ha : Akin u v) : optionsOf u = optionsOf v := by
  rw [optionsOf, optionsOf, Invocation.valueOf, Invocation.valueOf,
    get?_of_read ha.lines mem_options]

theorem wanted_eq (ha : Akin u v) : wanted h s u = wanted h s v := by
  have htemplate : Environment.sliceTemplate ∈ namesRead := .tail _ (.tail _ (.head _))
  have hrequest : Slice.Request.ofEnv u.env = Slice.Request.ofEnv v.env := by
    unfold Slice.Request.ofEnv Slice.Request.visible
    rw [get?_of_read ha.lines htemplate, get?_of_read ha.lines mem_visible]
  rw [wanted, wanted, ha.optionsOf_eq, hrequest]

theorem selected_eq (ha : Akin u v) : selected u = selected v := by
  rw [selected, selected, Invocation.valueOf, Invocation.valueOf,
    get?_of_read ha.lines mem_visible, ha.optionsOf_eq]

theorem hooked_eq (ha : Akin u v) : hooked u = hooked v := by
  rw [hooked, hooked, ha.prestart]

theorem hasDevice_eq (ha : Akin u v) (path : String) : u.hasDevice path = v.hasDevice path := by
  rw [Spec.hasDevice, Spec.hasDevice, ha.devices]

/-- The marker is missing in both or in neither. -/
theorem marking_eq (ha : Akin u v) :
    (isPlugin u.env && !u.env.contains Environment.pluginMarker) =
      (isPlugin v.env && !v.env.contains Environment.pluginMarker) := by
  have hhost : Environment.hostName ∈ namesRead := by decide
  have hmarker (env : Environment.Lines) :
      (readLines env).contains Environment.pluginMarker =
        env.contains Environment.pluginMarker :=
    Environment.contains_filter isRead_pluginMarker env
  rw [isPlugin, isPlugin, Invocation.valueOf, Invocation.valueOf, get?_of_read ha.lines hhost,
    ← hmarker u.env, ← hmarker v.env, ha.lines]

end Akin

/-- The same entries stand behind both lists. -/
def GrowAlike {α : Type} (l m l' m' : List α) : Prop := ∃ new, l' = l ++ new ∧ m' = m ++ new

theorem GrowAlike.refl {α : Type} (l m : List α) : GrowAlike l m l m :=
  ⟨[], (List.append_nil l).symm, (List.append_nil m).symm⟩

theorem GrowAlike.append {α : Type} {l m l' m' : List α} (hg : GrowAlike l m l' m')
    (new : List α) : GrowAlike l m (l' ++ new) (m' ++ new) := by
  obtain ⟨old, rfl, rfl⟩ := hg
  exact ⟨old ++ new, List.append_assoc .., List.append_assoc ..⟩

/-- The documents `u` and `v` have become `u'` and `v'`, which are alike, by the same entries behind
their lists. Lines that were there may have got other values. -/
structure AddsAlike (u v u' v' : Spec) : Prop where
  akin : Akin u' v'
  env : ∃ old old', old.length = u.env.length ∧ old'.length = v.env.length ∧
    GrowAlike old old' u'.env v'.env
  prestart : GrowAlike u.prestart v.prestart u'.prestart v'.prestart
  poststop : GrowAlike u.poststop v.poststop u'.poststop v'.poststop
  devices : GrowAlike u.devices v.devices u'.devices v'.devices
  rules : GrowAlike u.rules v.rules u'.rules v'.rules

/-- The same, with no line added yet. -/
structure BeginsAlike (u v u' v' : Spec) : Prop extends AddsAlike u v u' v' where
  length_left : u'.env.length = u.env.length
  length_right : v'.env.length = v.env.length

variable {u v u' v' : Spec}

theorem BeginsAlike.of_akin (ha : Akin u v) : BeginsAlike u v u v where
  akin := ha
  env := ⟨u.env, v.env, rfl, rfl, .refl _ _⟩
  prestart := .refl _ _
  poststop := .refl _ _
  devices := .refl _ _
  rules := .refl _ _
  length_left := rfl
  length_right := rfl

theorem BeginsAlike.withHook (hb : BeginsAlike u v u' v') (s : Settings) :
    BeginsAlike u v (withHook s u') (withHook s v') := by
  unfold Creation.withHook
  rw [hb.akin.hooked_eq]
  split
  · exact hb
  · exact {
      akin := ⟨hb.akin.lines, by simp [hb.akin.prestart], hb.akin.devices, hb.akin.rules⟩
      env := hb.env
      prestart := hb.prestart.append _
      poststop := by
        rw [Spec.poststop_addPrestart, Spec.poststop_addPrestart]
        exact hb.poststop
      devices := hb.devices
      rules := hb.rules
      length_left := hb.length_left
      length_right := hb.length_right }

theorem AddsAlike.addDevice (ha : AddsAlike u v u' v') (d : Device) :
    AddsAlike u v (u'.addDevice d) (v'.addDevice d) := by
  have hdevices : GrowAlike u.devices v.devices (u'.addDevice d).devices (v'.addDevice d).devices ∧
      (u'.addDevice d).devices = (v'.addDevice d).devices := by
    rw [Spec.devices_addDevice, Spec.devices_addDevice, ha.akin.hasDevice_eq]
    split
    · exact ⟨ha.devices, ha.akin.devices⟩
    · exact ⟨ha.devices.append [d], by rw [ha.akin.devices]⟩
  have hrules : GrowAlike u.rules v.rules (u'.addDevice d).rules (v'.addDevice d).rules ∧
      (u'.addDevice d).rules = (v'.addDevice d).rules := by
    rw [Spec.rules_addDevice, Spec.rules_addDevice, ha.akin.hasDevice_eq, ha.akin.rules]
    split
    · exact ⟨ha.akin.rules ▸ ha.rules, rfl⟩
    · exact ⟨(ha.akin.rules ▸ ha.rules).append [d.rule], rfl⟩
  exact {
    akin := ⟨by simp [ha.akin.lines], by simp [ha.akin.prestart], hdevices.2, hrules.2⟩
    env := by simpa using ha.env
    prestart := by simpa using ha.prestart
    poststop := by simpa using ha.poststop
    devices := hdevices.1
    rules := hrules.1 }

theorem AddsAlike.marked (ha : AddsAlike u v u' v') : AddsAlike u v (marked u') (marked v') := by
  unfold Creation.marked
  rw [ha.akin.marking_eq]
  split
  · obtain ⟨old, old', hold, hold', hlines⟩ := ha.env
    have hread : readLines (u'.env ++ [Environment.pluginMarker]) =
        readLines (v'.env ++ [Environment.pluginMarker]) := by
      have hlines := ha.akin.lines
      unfold readLines at hlines ⊢
      rw [List.filter_append, List.filter_append, hlines]
    exact { ha with
      akin := ⟨hread, ha.akin.prestart, ha.akin.devices, ha.akin.rules⟩
      env := ⟨old, old', hold, hold', hlines.append _⟩ }
  · exact ha

theorem readLines_sliced (hany : u.env.any (Environment.isNamed Environment.visibleDevices) = true)
    (slice : Slice) : readLines (sliced s slice u).env = (Environment.addToken
      (Environment.set (readLines u.env) Environment.visibleDevices (toString slice.slice))
      Environment.runtimeOptions RuntimeOption.virtual.name).1 := by
  unfold readLines sliced
  rw [Spec.env_addPoststop, Spec.env_withEnv,
    Environment.filter_addToken Environment.isName_runtimeOptions (sees_isRead mem_options),
    Environment.filter_set Environment.isName_visibleDevices (sees_isRead mem_visible) hany]

/-- Only a missing line of options is added. -/
theorem env_sliced (hany : u.env.any (Environment.isNamed Environment.visibleDevices) = true)
    (slice : Slice) : ∃ old, old.length = u.env.length ∧ (sliced s slice u).env =
      old ++ if u.env.any (Environment.isNamed Environment.runtimeOptions) then []
        else [Environment.line Environment.runtimeOptions RuntimeOption.virtual.name] := by
  have hne : Environment.visibleDevices ≠ Environment.runtimeOptions := by decide
  obtain ⟨old, hold, henv⟩ := Environment.addToken_eq_append
    (Environment.set u.env Environment.visibleDevices (toString slice.slice))
    Environment.runtimeOptions RuntimeOption.virtual.name
  rw [Environment.length_set hany] at hold
  rw [Environment.any_set_of_ne Environment.isName_visibleDevices hne hany] at henv
  exact ⟨old, hold, henv⟩

theorem BeginsAlike.sliced (hb : BeginsAlike u v u' v')
    (hany : u'.env.any (Environment.isNamed Environment.visibleDevices) = true) (slice : Slice) :
    AddsAlike u v (sliced s slice u') (sliced s slice v') := by
  have hany' : v'.env.any (Environment.isNamed Environment.visibleDevices) = true := by
    rw [← any_of_read hb.akin.lines mem_visible, hany]
  obtain ⟨old, hold, henv⟩ := env_sliced (s := s) hany slice
  obtain ⟨old', hold', henv'⟩ := env_sliced (s := s) hany' slice
  rw [any_of_read hb.akin.lines mem_options] at henv
  exact {
    akin := {
      lines := by rw [readLines_sliced hany, readLines_sliced hany', hb.akin.lines]
      prestart := by rw [prestart_sliced, prestart_sliced, hb.akin.prestart]
      devices := hb.akin.devices
      rules := hb.akin.rules }
    env := ⟨old, old', hold.trans hb.length_left, hold'.trans hb.length_right, _, henv, henv'⟩
    prestart := by
      rw [prestart_sliced, prestart_sliced]
      exact hb.prestart
    poststop := hb.poststop.append _
    devices := hb.devices
    rules := hb.rules }

theorem agrees_addHook (h : Host) (s : Settings) :
    Agrees (BeginsAlike u v) (BeginsAlike u v) (addHook h s : Edit σ Unit) := by
  intro r q ht
  have hakin := ht.work.akin
  rw [outcome_addHook, outcome_addHook, hakin.hooked_eq, hakin.prestart]
  cases Trust.realFile h s.hook with
  | error e => exact ⟨rfl, ht⟩
  | ok real =>
    dsimp only
    have hadded := ht.work.withHook s
    rw [Creation.withHook, Creation.withHook, hakin.hooked_eq] at hadded
    split
    · exact ⟨rfl, ht⟩
    · split
      · exact ⟨rfl, ht.noted _ _⟩
      · next hnone =>
        rw [if_neg hnone, if_neg hnone] at hadded
        exact ⟨rfl, ht.working hadded⟩

/-- The slice that both ask for is made by the same calls, and gets the same number. -/
theorem agrees_addSlice (h : Host) (s : Settings) (svc : Service σ) :
    Agrees (BeginsAlike u v) (AddsAlike u v) (addSlice h s svc) := by
  intro r q ht
  have hcreate (request : Slice.Request) :
      Agrees (BeginsAlike u v) (BeginsAlike u v) (Slice.create svc request) :=
    .withSession svc (((Asks.findDevice request.physical).agrees).andThen fun _ =>
      (Agrees.ask svc _).andThen fun _ => (Agrees.note _).andThen fun _ => .pure _)
  rw [outcome_addSlice, outcome_addSlice, ← ht.work.akin.wanted_eq]
  rcases hw : wanted h s r.work with f | _ | request
  · exact ⟨rfl, ht.weaken fun _ _ hb => hb.toAddsAlike⟩
  · exact ⟨rfl, ht.weaken fun _ _ hb => hb.toAddsAlike⟩
  · dsimp only
    have hwork := Slice.work_create svc request r
    rw [outcome_bind, outcome_bind, outcome_mapFailure, outcome_mapFailure]
    obtain ⟨f, r', q', hr, hq, hafter⟩ | ⟨slice, r', q', hr, hq, hafter⟩ :=
      (hcreate request).outcomes ht
    · rw [hr, hq]
      exact ⟨rfl, hafter.weaken fun _ _ hb => hb.toAddsAlike⟩
    · rw [hr] at hwork
      rw [hr, hq]
      dsimp only [mapError_ok]
      obtain ⟨ls, hls⟩ := outcome_addSliceTo (s := s) slice r'
      obtain ⟨ks, hks⟩ := outcome_addSliceTo (s := s) slice q'
      have hany : r'.work.env.any (Environment.isNamed Environment.visibleDevices) = true := by
        rw [hwork]
        exact (wants_of_wanted hw).any_isNamed
      rw [hls, hks]
      exact ⟨rfl, (hafter.working (hafter.work.sliced hany slice)).noted ls ks⟩

theorem agrees_addNode (h : Host) (host name : String) :
    Agrees (AddsAlike u v) (AddsAlike u v) (addNode h host name : Act σ Spec Fault Unit) := by
  intro r q ht
  cases hd : Device.ofHost h host with
  | error f =>
    rw [addNode_of_error hd, addNode_of_error hd]
    exact ⟨rfl, ht⟩
  | ok d =>
    obtain ⟨ls, hls⟩ := addNode_of_ok name hd r
    obtain ⟨ks, hks⟩ := addNode_of_ok name hd q
    rw [hls, hks]
    exact ⟨rfl, (ht.working (ht.work.addDevice _)).noted ls ks⟩

theorem agrees_tryNamed (h : Host) (s : Settings) (name : String) :
    Agrees (AddsAlike u v) (AddsAlike u v) (tryNamed h s name : Edit σ Unit) := by
  refine (agrees_addNode h (s.device name) name).attempt.andThen fun tried => ?_
  cases tried with
  | ok => exact .pure _
  | error f => exact .note _

theorem agrees_addManagerNodes (h : Host) (s : Settings) (svc : Service σ) :
    Agrees (AddsAlike u v) (AddsAlike u v) (addManagerNodes h s svc) := by
  have hnode (host name : String) : Agrees (AddsAlike u v) (AddsAlike u v)
      (mapFailure Failure.ofFault (addNode h host name) : Edit σ Unit) :=
    (agrees_addNode h host name).mapFailure _
  refine .withSession svc ((Asks.chipName.agrees.mapFailure _).andThen fun chip => ?_)
  refine (Agrees.note _).andThen fun _ => ?_
  split
  · exact (Agrees.forM _ (agrees_tryNamed h s)).andThen fun _ =>
      (Agrees.ofExcept _).andThen fun _ => hnode _ _
  · refine (hnode _ _).andThen fun _ => (Asks.product.agrees.mapFailure _).andThen fun _ => ?_
    refine (Agrees.note _).andThen fun _ => ?_
    split
    · exact .pure _
    · exact .forM _ fun name => hnode _ _

theorem agrees_addDevices (h : Host) (s : Settings) (svc : Service σ) :
    Agrees (AddsAlike u v) (AddsAlike u v) (addDevices h s svc) := by
  intro r q ht
  rw [outcome_addDevices, outcome_addDevices, ht.work.akin.selected_eq]
  rcases selected q.work with f | _ | ⟨devices, options⟩
  · exact ⟨rfl, ht⟩
  · exact ⟨rfl, ht⟩
  · have hselected : Agrees (AddsAlike u v) (AddsAlike u v) (addSelected h s svc devices options) :=
      (Agrees.note _).andThen fun _ =>
        (Agrees.forM _ fun _ => (agrees_addNode h _ _).mapFailure _).andThen fun _ =>
          agrees_addManagerNodes h s svc
    exact hselected r q ht

theorem agrees_addMarker : Agrees (AddsAlike u v) (AddsAlike u v) (addMarker : Edit σ Unit) := by
  intro r q ht
  rw [outcome_addMarker, outcome_addMarker]
  exact ⟨rfl, ht.working ht.work.marked⟩

theorem agrees_mutate (h : Host) (s : Settings) (svc : Service σ)
    (hu : u.env.length ≤ maxItems) (hv : v.env.length ≤ maxItems) :
    Agrees (BeginsAlike u v) (AddsAlike u v) (mutate h s svc) := by
  have hrest : Agrees (BeginsAlike u v) (AddsAlike u v) (do
      mapFailure (Failure.within .creatingSlice) (addSlice h s svc)
      finish h s svc) :=
    ((agrees_addSlice h s svc).mapFailure _).bind (fun _ =>
      ((agrees_addDevices h s svc).mapFailure _).andThen fun _ => agrees_addMarker) fun _ _ ha => ha
  intro r q ht
  rw [outcome_mutate, outcome_mutate]
  obtain ⟨f, r', q', hr, hq, hafter⟩ | ⟨⟨⟩, r', q', hr, hq, hafter⟩ :=
    (agrees_addHook h s).outcomes ht
  · rw [hr, hq]
    exact ⟨rfl, hafter.weaken fun _ _ hb => hb.toAddsAlike⟩
  · rw [hr, hq]
    -- The hook adds no line, so neither document has too many by now.
    have hleft : ¬ r'.work.env.length > maxItems := by
      rw [hafter.work.length_left]
      exact Nat.not_lt.mpr hu
    have hright : ¬ q'.work.env.length > maxItems := by
      rw [hafter.work.length_right]
      exact Nat.not_lt.mpr hv
    dsimp only
    rw [if_neg hleft, if_neg hright]
    exact hrest r' q' hafter

/-- Documents that agree in what is read get the same entries and lead to the same calls and
answers, or they are refused for the same reason. Everything else in them is of no account. -/
theorem mutate_unrelated (h : Host) (s : Settings) (svc : Service σ) (m : σ) {u v : Spec}
    (hakin : Akin u v) (hu : u.env.length ≤ 65535) (hv : v.env.length ≤ 65535) :
    let left := outcome (mutate h s svc) { memory := m, work := u }
    let right := outcome (mutate h s svc) { memory := m, work := v }
    left.1 = right.1 ∧ left.2.trace = right.2.trace ∧ AddsAlike u v left.2.work right.2.work := by
  obtain ⟨hresult, hafter⟩ := agrees_mutate h s svc hu hv { memory := m, work := u }
    { memory := m, work := v } ⟨rfl, rfl, .of_akin hakin⟩
  exact ⟨hresult, hafter.trace, hafter.work⟩

/-- The device plugin's container among other lines, with another root, a hook of its own and a
member that nothing here names. -/
def mingled : Spec where
  process := { env := some [
    "PATH=/bin", "ASCEND_VISIBLE_DEVICES= 0", "no name", "ASCEND_VNPU_SPECS=vir04",
    Environment.line Environment.runtimeOptions " NODRV", "ASCEND_RUNTIME_MOUNTS=a",
    " ASCEND_VISIBLE_DEVICES =1", "HOSTNAME=ascend-device-plugin", "HOME=/"] }
  root := { path := "elsewhere" }
  hooks := some { poststop := some [Hook.start "/bin/after" []] }
  other := [("ociVersion", .string "1.0.2")]

/-- Among the other lines the same slice is made and written down. -/
theorem mutate_unrelated_mingled :
    Akin (asking " NODRV") mingled ∧ (asking " NODRV").env.length ≤ 65535 ∧
    mingled.env.length ≤ 65535 ∧ (firstRun mingled).1 = .ok () ∧
    let left := firstRun (asking " NODRV")
    let right := firstRun mingled
    left.1 = right.1 ∧ left.2.trace = right.2.trace ∧
      AddsAlike (asking " NODRV") mingled left.2.work right.2.work := by
  have hakin : Akin (asking " NODRV") mingled := ⟨by decide +kernel, rfl, rfl, rfl⟩
  have hleft : (asking " NODRV").env.length ≤ 65535 := by decide
  have hright : mingled.env.length ≤ 65535 := by decide
  have hok : (firstRun mingled).1 = .ok () := by decide +kernel
  refine ⟨hakin, hleft, hright, hok, ?_⟩
  unfold firstRun
  exact mutate_unrelated board places Scripted.standard [] hakin hleft hright

end NpuRuntime.Creation
