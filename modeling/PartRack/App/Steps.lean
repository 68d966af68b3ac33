import PartRack.App.Handlers
import PartRack.Lifecycle.Invalidations

/-! Everything a step of the firmware can do, with the state it leaves. -/

namespace PartRack

/-! ## Only connection events touch `connected` -/

namespace Lifecycle

@[simp] theorem scheduleLocked_connected (l : Lifecycle) :
    l.scheduleLocked.2.connected = l.connected := by
  unfold scheduleLocked
  split_ifs <;> rfl

@[simp] theorem reportChanged_connected (notify : AdapterCall) (l : Lifecycle) :
    (l.reportChanged notify).1.connected = l.connected := by
  unfold reportChanged
  dsimp only
  split_ifs
  · rfl
  · exact scheduleLocked_connected _

@[simp] theorem reportNfcFd_connected (l : Lifecycle) :
    l.reportNfcFd.1.connected = l.connected := scheduleLocked_connected _

@[simp] theorem onDisconnected_connected (l : Lifecycle) :
    l.onDisconnected.1.connected = false := scheduleLocked_connected _

theorem startBegin_connected (l : Lifecycle) : l.startBegin.1.connected = l.connected := by
  unfold startBegin
  split_ifs <;> rfl

theorem startEnd_connected (l : Lifecycle) (target : BitVec 32) (err : Int) :
    (l.startEnd target err).connected = l.connected := by
  unfold startEnd
  split_ifs <;> rfl

theorem processEnd_connected (l : Lifecycle) (target : BitVec 32) (err : Int) :
    (l.processEnd target err).1.connected = l.connected := by
  unfold processEnd
  dsimp only
  split_ifs
  · exact scheduleLocked_connected _
  · rfl
  · rfl

end Lifecycle

def LifecycleEvent.ofConnection : LifecycleEvent → Bool
  | .connected | .disconnected => true
  | _ => false

namespace World

theorem connected_of_step {w t : World} {e : LifecycleEvent} (h : w.step e = some t)
    (he : e.ofConnection = false) :
    t.lifecycle.connected = w.lifecycle.connected := by
  cases e with
  | startCall =>
    obtain ⟨-, -, rfl⟩ := startCall_cases h
    exact Lifecycle.startBegin_connected _
  | processCall =>
    obtain ⟨-, ⟨-, rfl⟩ | ⟨-, rfl⟩⟩ := processCall_cases h <;> rfl
  | stackApply err =>
    obtain ⟨c, -, -, rfl⟩ := stackApply_cases h
    rfl
  | applyReturn =>
    obtain ⟨c, err, -, -, -, -, -, -, ⟨-, hl, -⟩ | ⟨-, hl, -⟩⟩ := applyReturn_cases h
    · rw [hl, Lifecycle.startEnd_connected]
    · rw [hl, Lifecycle.processEnd_connected]
  | reportNfcFd =>
    obtain rfl := Option.some.inj h
    exact Lifecycle.reportNfcFd_connected _
  | reportBindingChanged =>
    obtain rfl := Option.some.inj h
    exact Lifecycle.reportChanged_connected _ _
  | reportLightChanged mode remainingS =>
    obtain rfl := Option.some.inj h
    exact Lifecycle.reportChanged_connected _ _
  | connected => exact Bool.noConfusion he
  | disconnected => exact Bool.noConfusion he

end World

namespace AppState
open BindingTable

/-- The steps of advertising, a wake by NFC among them. -/
inductive AdvertisingStep (s : AppState) : AppEvent → AppState → Prop
  | bleStart {t : AppState} (h : s.bleStart = some t) : AdvertisingStep s .bleStart t
  | lifecycleWork {t : AppState} (h : s.bleLifecycleWorkHandler = some t) :
      AdvertisingStep s .lifecycleWork t
  | fillAdvMsd {t : AppState} (batteryPct : Byte) (fault : Bool)
      (h : s.fillAdvMsd batteryPct fault = some t) :
      AdvertisingStep s (.fillAdvMsd batteryPct fault) t
  | stackApply {t : AppState} (err : Int) (h : s.stackApply err = some t) :
      AdvertisingStep s (.stackApply err) t
  | applyReturn {t : AppState} (h : s.applyReturn = some t) : AdvertisingStep s .applyReturn t
  | nfcFd (gatt : GattNotify) (nowMs : ℤ) : AdvertisingStep s (.nfcFd gatt nowMs)
      ({ s with lastFdMs := nowMs }.invalidate s.world.lifecycle.reportNfcFd)

/-- What the steps of advertising leave alone. -/
structure SameData (s t : AppState) : Prop where
  device : t.device = s.device
  light : t.light = s.light
  readAllWork : t.readAllWork = s.readAllWork
  currentConn : t.currentConn = s.currentConn
  bleConnected : t.bleConnected = s.bleConnected
  connected : t.world.lifecycle.connected = s.world.lifecycle.connected
  att : t.att = s.att
  commits : t.commits = s.commits

theorem AdvertisingStep.sameData {s t : AppState} {e : AppEvent} (h : AdvertisingStep s e t) :
    SameData s t := by
  cases h with
  | bleStart h =>
    unfold AppState.bleStart at h
    split_ifs at h
    obtain ⟨w, hw, rfl⟩ := Option.map_eq_some_iff.mp h
    exact ⟨rfl, rfl, rfl, rfl, rfl, World.connected_of_step (e := .startCall) hw rfl, rfl, rfl⟩
  | lifecycleWork h =>
    unfold bleLifecycleWorkHandler at h
    split_ifs at h
    obtain ⟨w, hw, rfl⟩ := Option.map_eq_some_iff.mp h
    exact ⟨rfl, rfl, rfl, rfl, rfl, World.connected_of_step (e := .processCall) hw rfl, rfl, rfl⟩
  | fillAdvMsd batteryPct fault h =>
    unfold AppState.fillAdvMsd at h
    split at h
    · split_ifs at h
      obtain rfl := Option.some.inj h
      exact ⟨rfl, rfl, rfl, rfl, rfl, rfl, rfl, rfl⟩
    · exact absurd h.symm (Option.some_ne_none _)
  | stackApply err h =>
    unfold AppState.stackApply at h
    split_ifs at h
    all_goals
      obtain ⟨w, hw, rfl⟩ := Option.map_eq_some_iff.mp h
      exact ⟨rfl, rfl, rfl, rfl, rfl, World.connected_of_step (e := .stackApply err) hw rfl,
        rfl, rfl⟩
  | applyReturn h =>
    unfold AppState.applyReturn at h
    obtain ⟨w, hw, rfl⟩ := Option.map_eq_some_iff.mp h
    exact ⟨rfl, rfl, rfl, rfl, rfl, World.connected_of_step (e := .applyReturn) hw rfl, rfl, rfl⟩
  | nfcFd gatt nowMs =>
    exact ⟨rfl, rfl, rfl, rfl, rfl, Lifecycle.reportNfcFd_connected _, rfl, rfl⟩

/-- What passes while neither the table nor the light changes: apart from a start of READ_ALL
and its answer, values read that are those of the state. -/
def Quiet (s : AppState) : AttPdu → Prop
  | .read .tableInfo value => value = s.tableInfoBytes
  | .read .lightStatus value =>
    ∃ remainingS, value = lightStatusBytes s.light.lightState.mode remainingS
  | pdu => Apart pdu

theorem Apart.quiet {pdu : AttPdu} (h : Apart pdu) (s : AppState) : s.Quiet pdu := by
  cases pdu with
  | write attr offset value => exact h
  | read attr value => exact absurd h id
  | notify attr value => exact h

end AppState

/-- The notifications that the stack takes in a step; it takes all of them in a step that
makes none. -/
def AppEvent.gatt : AppEvent → GattNotify
  | .bindingCpWrite _ gatt _ _ | .lightCommandWrite gatt _ _ _ | .offWork gatt _
  | .readAllWork gatt | .nfcFd gatt _ => gatt
  | _ => fun _ _ => 0

namespace App
open AppState

inductive Did (e : AppEvent) (s : App) : App → Prop
  | advertised {env : AppState} (h : AdvertisingStep s.env e env) : Did e s (s.setEnv env)
  | connected (h : s.env.currentConn = false) : Did e s (s.connected 0)
  | disconnected (h : s.env.currentConn = true) : Did e s s.disconnected
  | exchanged (pdus : List AttPdu) (h : ∀ p ∈ pdus, s.env.Quiet p)
      (hconn : pdus ≠ [] → s.env.currentConn = true) : Did e s (s.setEnv (s.env.exchange pdus))
  | tableChanged (save : SettingsSaveOne) (op : TableOp) (pdus : List AttPdu)
      (hconn : s.env.currentConn = true) (hpdus : ∀ p ∈ pdus, Apart p)
      (hop : (mutate save op s.env).1 = 0) :
      Did e s (s.setEnv
        (((mutate save op s.env).2.exchange pdus).reportBindingChanged e.gatt))
  | lightChanged (change : LightControl.Event) (light : LightControl) (pdus : List AttPdu)
      (remainingS : BitVec 16) (hconn : pdus ≠ [] → s.env.currentConn = true)
      (hpdus : ∀ p ∈ pdus, Apart p) (hstep : s.env.light.step change = some light) :
      Did e s (s.setEnv (((s.env.putLight light).exchange pdus).reportLightChanged e.gatt
        (light.lightState.mode, remainingS)))
  | readAllStarted (hconn : s.env.currentConn = true) :
      Did e s (Pacer.start (pacerAdapter e.gatt) (s.setEnv
        (s.env.exchange [.write .bindingCp 0 [BindingOp.readAll.code]]))).2
  | readAllWorked (h : s.env.readAllWork ≠ none) : Did e s (s.readAllWorkHandler e.gatt)
  | powerCycled (outputsErr stripErr : Int) : Did e s (s.powerCycle outputsErr stripErr)

section Write
variable {s : App} {save : SettingsSaveOne} {e : AppEvent}

theorem Did.refl : Did e s s := by
  have h : Did e s (s.setEnv (s.env.exchange [])) :=
    .exchanged [] (fun _ hp => absurd hp List.not_mem_nil) fun hne => absurd rfl hne
  rwa [exchange_nil] at h

theorem did_bindingCpWrite (offset : ℕ) (frame : List Byte) (hconn : s.env.currentConn = true) :
    Did e s ((s.setEnv (s.env.push (.write .bindingCp offset frame))).bindingCpWrite
      save e.gatt offset frame).2 := by
  rw [push_eq_exchange]
  unfold bindingCpWrite
  by_cases hlen : offset ≠ 0 ∨ frame.length < 1
  · -- the frame is refused before anyone looks at it
    rw [if_pos hlen]
    refine .exchanged _ (fun p hp => ?_) fun _ => hconn
    obtain rfl := List.mem_singleton.mp hp
    rintro ⟨-, hoffset, hframe⟩
    rcases hlen with hne | hshort
    · exact hne hoffset
    · rw [hframe] at hshort
      exact absurd hshort (by decide)
  rw [if_neg hlen]
  obtain ⟨hoffset, hne⟩ := not_or.mp hlen
  rw [not_not] at hoffset
  subst hoffset
  cases frame with
  | nil => exact absurd Nat.zero_lt_one hne
  | cons code args =>
    by_cases hcode : code = BindingOp.readAll.code
    · subst hcode
      cases args with
      | nil => exact .readAllStarted hconn
      | cons b args =>
        obtain ⟨pdus, heq, hpdus⟩ := notifyBindingResult_snd e.gatt BindingOp.readAll.code
          (statusFromErrno (-Errno.EINVAL)) []
          (s.env.exchange [.write .bindingCp 0 (BindingOp.readAll.code :: b :: args)])
        have hstep : handleReadAllAsync e.gatt (BindingOp.readAll.code :: b :: args)
            (s.setEnv (s.env.exchange [.write .bindingCp 0 (BindingOp.readAll.code :: b :: args)])) =
              (true, s.setEnv (s.env.exchange
                ([.write .bindingCp 0 (BindingOp.readAll.code :: b :: args)] ++ pdus))) := by
          rw [← exchange_exchange, ← heq]
          rfl
        rw [hstep]
        refine .exchanged _ (fun p hp => ?_) fun _ => hconn
        rcases List.mem_append.mp hp with hp | hp
        · obtain rfl := List.mem_singleton.mp hp
          rintro ⟨-, -, hframe⟩
          exact List.cons_ne_nil _ _ (List.cons.inj hframe).2
        · rw [hpdus p hp]
          exact apart_reply (Or.inr (by decide))
    · have hwrite : Apart (.write .bindingCp 0 (code :: args)) := fun h =>
        hcode (List.cons.inj h.2.2).1
      have hstep : handleReadAllAsync e.gatt (code :: args)
          (s.setEnv (s.env.exchange [.write .bindingCp 0 (code :: args)])) =
            (false, s.setEnv (s.env.exchange [.write .bindingCp 0 (code :: args)])) :=
        if_pos fun h => hcode (Option.some.inj h)
      rw [hstep]
      dsimp only
      rw [if_neg Bool.false_ne_true]
      rcases dispatch_cases save e.gatt args hcode
        (s.env.exchange [.write .bindingCp 0 (code :: args)]) with
        ⟨pdus, hpdus, heq⟩ | ⟨op, pdus, hpdus, hop, heq⟩
      · show Did e s (s.setEnv ((dispatcher save e.gatt).dispatchBindingCp (code :: args)
          (s.env.exchange [.write .bindingCp 0 (code :: args)])).2)
        rw [heq, exchange_exchange]
        refine .exchanged _ (fun p hp => ?_) fun _ => hconn
        rcases List.mem_cons.mp hp with rfl | hp
        · exact hwrite
        · exact (hpdus p hp).quiet _
      · show Did e s (s.setEnv ((dispatcher save e.gatt).dispatchBindingCp (code :: args)
          (s.env.exchange [.write .bindingCp 0 (code :: args)])).2)
        rw [heq, mutate_exchange, exchange_exchange]
        refine .tableChanged save op _ hconn (fun p hp => ?_) hop
        rcases List.mem_cons.mp hp with rfl | hp
        · exact hwrite
        · exact hpdus p hp

theorem did_setLight {c : LightControl.Event} {light : LightControl} (pdus : List AttPdu)
    (hconn : pdus ≠ [] → s.env.currentConn = true) (hpdus : ∀ p ∈ pdus, Apart p)
    (hstep : s.env.light.step c = some light) :
    Did e s (s.setEnv ((s.env.exchange pdus).setLight e.gatt light)) := by
  rcases LightControl.step_cases_reports hstep with rfl | ⟨remainingS, hreports⟩
  · have hsame : (s.env.exchange pdus).setLight e.gatt s.env.light = s.env.exchange pdus := by
      unfold setLight
      rw [show (s.env.exchange pdus).light = s.env.light from rfl, List.drop_length]
      rfl
    rw [hsame]
    exact .exchanged pdus (fun p hp => (hpdus p hp).quiet _) hconn
  · have hone : (s.env.exchange pdus).setLight e.gatt light =
        ((s.env.putLight light).exchange pdus).reportLightChanged e.gatt
          (light.lightState.mode, remainingS) := by
      unfold setLight
      rw [show (s.env.exchange pdus).light = s.env.light from rfl, hreports, List.drop_left]
      rfl
    rw [hone]
    exact .lightChanged c light pdus remainingS hconn hpdus hstep

end Write

/-- Everything a step can do. -/
theorem step_did {s t : App} {e : AppEvent} (h : s.step e = some t) : Did e s t := by
  cases e with
  | bleStart =>
    obtain ⟨env, henv, rfl⟩ := Option.map_eq_some_iff.mp h
    exact .advertised (.bleStart henv)
  | lifecycleWork =>
    obtain ⟨env, henv, rfl⟩ := Option.map_eq_some_iff.mp h
    exact .advertised (.lifecycleWork henv)
  | fillAdvMsd batteryPct fault =>
    obtain ⟨env, henv, rfl⟩ := Option.map_eq_some_iff.mp h
    exact .advertised (.fillAdvMsd batteryPct fault henv)
  | stackApply err =>
    obtain ⟨env, henv, rfl⟩ := Option.map_eq_some_iff.mp h
    exact .advertised (.stackApply err henv)
  | applyReturn =>
    obtain ⟨env, henv, rfl⟩ := Option.map_eq_some_iff.mp h
    exact .advertised (.applyReturn henv)
  | connected err =>
    simp only [step] at h
    split_ifs at h with hconn
    obtain rfl := Option.some.inj h
    by_cases herr : err = 0
    · subst herr
      exact .connected (eq_false_of_ne_true hconn)
    · rw [App.connected, if_pos herr]
      exact .refl
  | disconnected =>
    simp only [step] at h
    split_ifs at h with hconn
    obtain rfl := Option.some.inj h
    exact .disconnected hconn
  | bindingCpWrite save gatt offset frame =>
    simp only [step, whileConnected] at h
    split_ifs at h with hconn
    obtain rfl := Option.some.inj h
    exact did_bindingCpWrite offset frame hconn
  | lightCommandWrite gatt offset buf nowMs =>
    simp only [step, whileConnected] at h
    split_ifs at h with hconn
    obtain rfl := Option.some.inj h
    refine did_setLight (c := .write offset buf nowMs) _ (fun _ => hconn) (fun p hp => ?_) rfl
    obtain rfl := List.mem_singleton.mp hp
    exact fun hwrite => nomatch hwrite.1
  | tableInfoRead =>
    simp only [step, whileConnected] at h
    split_ifs at h with hconn
    obtain rfl := Option.some.inj h
    refine .exchanged _ (fun p hp => ?_) fun _ => hconn
    obtain rfl := List.mem_singleton.mp hp
    rfl
  | lightStatusRead nowMs =>
    simp only [step, whileConnected] at h
    split_ifs at h with hconn
    obtain rfl := Option.some.inj h
    refine .exchanged _ (fun p hp => ?_) fun _ => hconn
    obtain rfl := List.mem_singleton.mp hp
    exact ⟨_, rfl⟩
  | offWork gatt nowMs =>
    obtain ⟨env, henv, rfl⟩ := Option.map_eq_some_iff.mp h
    obtain ⟨light, hlight, rfl⟩ := Option.map_eq_some_iff.mp henv
    have hdid : Did (.offWork gatt nowMs) s
        (s.setEnv ((s.env.exchange []).setLight gatt light)) :=
      did_setLight [] (fun hne => absurd rfl hne) (fun _ hp => absurd hp List.not_mem_nil) hlight
    rwa [exchange_nil] at hdid
  | readAllWork gatt =>
    simp only [step] at h
    split_ifs at h with hwork
    obtain rfl := Option.some.inj h
    exact .readAllWorked hwork
  | nfcFd gatt nowMs =>
    obtain rfl := Option.some.inj h
    unfold nfcFdHandler
    split_ifs
    · exact .refl
    · rw [reportNfcFd_eq]
      exact .advertised (.nfcFd gatt nowMs)
  | powerCycle outputsErr stripErr =>
    obtain rfl := Option.some.inj h
    exact .powerCycled outputsErr stripErr

end App
end PartRack
