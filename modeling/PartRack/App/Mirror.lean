import PartRack.App.Invariant

/-! What a client knows of the device. It reads Table Info and Light Status, and is notified of
changes afterwards. While the stack accepts these notifications, what the client has seen last is
what the device has now. -/

namespace PartRack

/-- The value of a characteristic that a PDU shows to the client. -/
def AttPdu.shows (attr : GattAttr) : AttPdu → Option (List Byte)
  | .read a value | .notify a value => if a = attr then some value else none
  | .write .. => none

def lastSeen (attr : GattAttr) (att : List AttPdu) : Option (List Byte) :=
  (att.filterMap (AttPdu.shows attr)).getLast?

theorem lastSeen_append (attr : GattAttr) (a b : List AttPdu) :
    lastSeen attr (a ++ b) = (lastSeen attr b).or (lastSeen attr a) := by
  rw [lastSeen, List.filterMap_append, List.getLast?_append]
  rfl

theorem mem_of_lastSeen {attr : GattAttr} {att : List AttPdu} {value : List Byte}
    (h : lastSeen attr att = some value) : ∃ p ∈ att, p.shows attr = some value :=
  List.mem_filterMap.mp (List.mem_of_getLast? h)

namespace AppState

theorem Apart.shows_eq_none {p : AttPdu} (h : Apart p) {attr : GattAttr}
    (hattr : attr ≠ .bindingCp) : p.shows attr = none := by
  cases p with
  | write => rfl
  | read => exact absurd h id
  | notify a value => exact if_neg fun heq => hattr (heq.symm.trans h.1)

/-- The client has seen nothing of the characteristic on this connection, or has seen last what
satisfies `Now`. -/
def Sees (attr : GattAttr) (Now : List Byte → Prop) (att : List AttPdu) : Prop :=
  ∀ value, lastSeen attr att = some value → Now value

section Sees
variable {attr : GattAttr} {Now : List Byte → Prop} {att : List AttPdu}

theorem Sees.append (h : Sees attr Now att) {pdus : List AttPdu}
    (hpdus : ∀ p ∈ pdus, ∀ value, p.shows attr = some value → Now value) :
    Sees attr Now (att ++ pdus) := by
  intro value hvalue
  rw [lastSeen_append] at hvalue
  rcases Option.or_eq_some_iff.mp hvalue with hnew | ⟨-, hold⟩
  · obtain ⟨p, hp, hshows⟩ := mem_of_lastSeen hnew
    exact hpdus p hp value hshows
  · exact h value hold

theorem Sees.append_of_none (h : Sees attr Now att) {pdus : List AttPdu}
    (hpdus : ∀ p ∈ pdus, p.shows attr = none) : Sees attr Now (att ++ pdus) :=
  h.append fun p hp _ hshows => absurd ((hpdus p hp).symm.trans hshows).symm (Option.some_ne_none _)

theorem sees_notify (att : List AttPdu) {value : List Byte} (h : Now value) :
    Sees attr Now (att ++ [.notify attr value]) := by
  intro value' hvalue'
  have hshows : AttPdu.shows attr (.notify attr value) = some value := if_pos rfl
  have hlast : lastSeen attr [.notify attr value] = some value := by
    rw [lastSeen, List.filterMap_cons_some hshows]
    rfl
  rw [lastSeen_append, hlast] at hvalue'
  exact Option.some.inj hvalue' ▸ h

end Sees

/-- What the client has seen last on the present connection is what the device has now; the
time that is left to the light is not compared, as it runs on. -/
structure Mirrored (s : AppState) : Prop where
  tableInfo : Sees .tableInfo (fun value => value = s.tableInfoBytes) s.att
  lightStatus : Sees .lightStatus
    (fun value => ∃ remainingS, value = lightStatusBytes s.light.lightState.mode remainingS) s.att

theorem eq_none_of_notify {a attr : GattAttr} {v : List Byte} (h : Apart (.notify a v))
    (hattr : attr ≠ .bindingCp) {value : List Byte} :
    AttPdu.shows attr (.notify a v) ≠ some value := by
  rw [h.shows_eq_none hattr]
  exact Option.some_ne_none _ ∘ Eq.symm

theorem Quiet.tableInfo {s : AppState} {p : AttPdu} (h : s.Quiet p) {value : List Byte}
    (hshows : p.shows .tableInfo = some value) : value = s.tableInfoBytes := by
  cases p with
  | write => exact absurd hshows.symm (Option.some_ne_none _)
  | notify a v => exact absurd hshows (eq_none_of_notify h (by decide))
  | read a v =>
    cases a with
    | tableInfo => exact Option.some.inj hshows ▸ h
    | _ => exact absurd hshows.symm (Option.some_ne_none _)

theorem Quiet.lightStatus {s : AppState} {p : AttPdu} (h : s.Quiet p) {value : List Byte}
    (hshows : p.shows .lightStatus = some value) :
    ∃ remainingS, value = lightStatusBytes s.light.lightState.mode remainingS := by
  cases p with
  | write => exact absurd hshows.symm (Option.some_ne_none _)
  | notify a v => exact absurd hshows (eq_none_of_notify h (by decide))
  | read a v =>
    cases a with
    | lightStatus => exact Option.some.inj hshows ▸ h
    | _ => exact absurd hshows.symm (Option.some_ne_none _)

theorem Mirrored.exchange {s : AppState} (h : s.Mirrored) {pdus : List AttPdu}
    (hpdus : ∀ p ∈ pdus, s.Quiet p) : (s.exchange pdus).Mirrored :=
  ⟨h.tableInfo.append fun p hp _ => (hpdus p hp).tableInfo,
    h.lightStatus.append fun p hp _ => (hpdus p hp).lightStatus⟩

end AppState

/-- The stack accepts the notifications of Table Info and Light Status that a step makes. -/
def AppEvent.Accepted (e : AppEvent) : Prop :=
  ∀ value, e.gatt .tableInfo value = 0 ∧ e.gatt .lightStatus value = 0

namespace App
open AppState

/-- The mirror of a client that is connected. -/
def Mirrored (s : App) : Prop := s.env.currentConn = true → s.env.Mirrored

theorem Mirrored.did {s t : App} {e : AppEvent} (h : s.Mirrored) (hs : s.Invariant)
    (hgatt : ∀ value, e.gatt .tableInfo value = 0 ∧ e.gatt .lightStatus value = 0)
    (hdid : Did e s t) : t.Mirrored := by
  cases hdid with
  | @advertised env hstep =>
    intro hconn
    have hsame := hstep.sameData
    have hold := h (hsame.currentConn ▸ hconn)
    refine ⟨?_, ?_⟩
    · show Sees .tableInfo (fun value => value =
        env.device.firmware.tableModel.getInfo.toBytes) env.att
      rw [hsame.device, hsame.att]
      exact hold.tableInfo
    · show Sees .lightStatus (fun value => ∃ remainingS,
        value = lightStatusBytes env.light.lightState.mode remainingS) env.att
      rw [hsame.light, hsame.att]
      exact hold.lightStatus
  | connected _ =>
    intro _
    refine ⟨fun value hvalue => ?_, fun value hvalue => ?_⟩
    · exact absurd hvalue.symm (Option.some_ne_none _)
    · exact absurd hvalue.symm (Option.some_ne_none _)
  | disconnected _ => exact fun hconn => absurd hconn Bool.false_ne_true
  | exchanged pdus hpdus hconn =>
    intro hconn
    exact (h hconn).exchange hpdus
  | tableChanged save op pdus hconn hpdus hop =>
    intro _
    have hold := h hconn
    rw [reportBindingChanged_eq e.gatt (s := (mutate save op s.env).2.exchange pdus) hs.connected]
    have hlinked : ((mutate save op s.env).2.exchange pdus).currentConn = true := hconn
    rw [if_pos hlinked, accepted, if_pos (hgatt _).1]
    refine ⟨sees_notify _ rfl, ?_⟩
    refine Sees.append_of_none (hold.lightStatus.append_of_none fun p hp => ?_) fun p hp => ?_
    · exact (hpdus p hp).shows_eq_none (by decide)
    · rw [List.mem_singleton.mp hp]
      rfl
  | lightChanged change light pdus remainingS hconn hpdus hstep =>
    intro hlinked
    rw [reportLightChanged_eq e.gatt (s := (s.env.putLight light).exchange pdus)
      hs.connected] at hlinked ⊢
    have hold := h hlinked
    rw [if_pos (show ((s.env.putLight light).exchange pdus).currentConn = true from hlinked),
      accepted, if_pos (hgatt _).2]
    refine ⟨?_, sees_notify _ ⟨remainingS, rfl⟩⟩
    refine Sees.append_of_none (hold.tableInfo.append_of_none fun p hp => ?_) fun p hp => ?_
    · exact (hpdus p hp).shows_eq_none (by decide)
    · rw [List.mem_singleton.mp hp]
      rfl
  | readAllStarted hconn =>
    intro _
    have hold := h hconn
    refine ⟨hold.tableInfo.append_of_none fun p hp => ?_,
      hold.lightStatus.append_of_none fun p hp => ?_⟩
    all_goals
      rw [List.mem_singleton.mp hp]
      rfl
  | readAllWorked hwork =>
    intro hlinked
    obtain ⟨k, -, -, heq⟩ := hs.readAllWork_cases hwork e.gatt
    rw [heq] at hlinked ⊢
    split_ifs at hlinked ⊢
    · have hold := h hlinked
      refine ⟨hold.tableInfo.append_of_none fun p hp => ?_,
        hold.lightStatus.append_of_none fun p hp => ?_⟩
      all_goals
        rw [List.mem_singleton.mp hp]
        rfl
    · exact ⟨(h hlinked).tableInfo, (h hlinked).lightStatus⟩
  | powerCycled _ _ => exact fun hconn => absurd hconn Bool.false_ne_true

/-- On a connection, and on any that follow it, whatever the client has seen last of Table Info
is the Table Info of the table as it is, and what it has seen last of Light Status has the
mode of the light as it is, as long as the stack accepts these notifications. -/
theorem mirrored_along {device : Device} (h : device.Synced) (outputsErr stripErr : Int)
    (commits : ℕ) (before during : List AppEvent) (s t : App)
    (hs : before.foldlM step (boot device outputsErr stripErr commits) = some s)
    (ht : s.step (.connected 0) = some t) (haccept : ∀ e ∈ during, e.Accepted) :
    Runs.Along step Mirrored t during := by
  have hinv : s.Invariant := (invariant_along h _ _ _ before).of_foldlM hs
  have hfirst : t.Mirrored := by
    simp only [step] at ht
    split_ifs at ht
    obtain rfl := Option.some.inj ht
    intro _
    exact ⟨fun value hvalue => absurd hvalue.symm (Option.some_ne_none _),
      fun value hvalue => absurd hvalue.symm (Option.some_ne_none _)⟩
  have halong : Runs.Along step (fun u => u.Invariant ∧ u.Mirrored) t during :=
    Runs.along_of_meets (fun u e v hu hv he =>
      ⟨hu.1.step hv, hu.2.did hu.1 (fun value => he value) (step_did hv)⟩)
      ⟨hinv.step ht, hfirst⟩ (Runs.meets_of_forall t haccept)
  exact halong.imp (fun _ hu _ => hu.2) halong

theorem mirrored_along_cleared : Runs.Along step Mirrored ((boot Device.init 0 0 0).connected 0)
    [.tableInfoRead,
      .bindingCpWrite (fun _ => 0) (fun _ _ => 0) 0 [BindingOp.clearOne.code, 1],
      .lightCommandWrite (fun _ _ => 0) 0 LightControl.findSlot1 500,
      .offWork (fun _ _ => 0) 10500] := by
  refine mirrored_along Device.synced_init 0 0 0 [] _ (boot Device.init 0 0 0) _ rfl rfl ?_
  simp [AppEvent.Accepted, AppEvent.gatt]

end App
end PartRack
