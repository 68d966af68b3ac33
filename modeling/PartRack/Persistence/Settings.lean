import PartRack.BindingTable.Commit
import PartRack.Persistence.Snapshot

/-! The table across reboots (firmware/nrf52/app/src/binding_table.c). A save encodes the
proposed table and hands it to the settings store; after a reboot the stored value, if
there is one, is decoded and loaded again. -/

namespace PartRack

/-- The static variables of the file. Before the first call they are zero and
`table_model.save` is null; the flag and the callback are only ever set together. -/
structure Firmware where
  tableModel : BindingTable
  tableModelInitialized : Bool
deriving DecidableEq, Repr

def bindingTableSettingsName : String := "binding_table"

/-- What `settings_save_one` returns for a value, in the current call. -/
abbrev SettingsSaveOne := List Byte → Int

def persistTable (settingsSaveOne : SettingsSaveOne) : SaveCb :=
  fun records tableSeq => settingsSaveOne (Snapshot.encode records tableSeq).toBytes

namespace Firmware
open BindingTable

def boot : Firmware := ⟨⟨emptyRecords, 0⟩, false⟩

def bindingTableInit (_ : Firmware) : Firmware := ⟨BindingTable.init, true⟩

def ensureTableModelInitialized (fw : Firmware) : Firmware :=
  if fw.tableModelInitialized then fw else ⟨BindingTable.init, true⟩

def saveCb (fw : Firmware) (settingsSaveOne : SettingsSaveOne) : Option SaveCb :=
  if fw.tableModelInitialized then some (persistTable settingsSaveOne) else none

/-- `readCb` gives a negative error or at most as many bytes as the buffer takes. -/
def bindingTableSettingsSet (fw : Firmware) (key : String)
    (readCb : ℕ → Except Int (List Byte)) : Int × Firmware :=
  if key ≠ bindingTableSettingsName then (-Errno.ENOENT, fw)
  else
    let fw := fw.ensureTableModelInitialized
    match readCb 414 with
    | .error err => (err, fw)
    | .ok bs =>
      -- a value that does not decode is dropped, and the handler still reports success
      match (Snapshot.ofBytes bs).decode bs.length with
      | .error _ => (0, fw.bindingTableInit)
      | .ok (records, tableSeq) => (0, { fw with tableModel := load records tableSeq })

def call (fw : Firmware) (settingsSaveOne : SettingsSaveOne) (op : TableOp) : Outcome :=
  op.run (fw.saveCb settingsSaveOne) fw.tableModel

end Firmware

structure Device where
  firmware : Firmware
  flash : Option (List Byte)
deriving DecidableEq, Repr

inductive DeviceEvent
  | call (settingsSaveOne : SettingsSaveOne) (op : TableOp)
  | reboot

/-- The store keeps the whole new value when the save returns 0, else the old one. -/
def writeFlash (flash : Option (List Byte)) : Effect → Option (List Byte)
  | .save records tableSeq result =>
    if result = 0 then some (Snapshot.encode records tableSeq).toBytes else flash
  | .store _ _ => flash

namespace Device
open BindingTable

def init : Device := ⟨Firmware.boot.bindingTableInit, none⟩

def reboot (d : Device) : Device :=
  let fw := Firmware.boot.bindingTableInit
  match d.flash with
  | none => ⟨fw, none⟩
  | some value =>
    ⟨(fw.bindingTableSettingsSet bindingTableSettingsName fun n => .ok (value.take n)).2, d.flash⟩

def step (d : Device) : DeviceEvent → Device
  | .call settingsSaveOne op =>
    let outcome := d.firmware.call settingsSaveOne op
    ⟨{ d.firmware with tableModel := outcome.model }, outcome.effects.foldl writeFlash d.flash⟩
  | .reboot => d.reboot

def run (events : List DeviceEvent) : Device := events.foldl step init

/-- The stored value encodes the table in RAM, or nothing has been stored since the
table was last initialised. -/
structure Synced (d : Device) : Prop where
  initialized : d.firmware.tableModelInitialized = true
  seq_ne_zero : d.firmware.tableModel.tableSeq ≠ 0
  flash : d.flash = none ∧ d.firmware.tableModel = BindingTable.init ∨
    d.flash = some (Snapshot.encode d.firmware.tableModel.records
      d.firmware.tableModel.tableSeq).toBytes

theorem load_self {model : BindingTable} (h : model.tableSeq ≠ 0) :
    load model.records model.tableSeq = model := by
  rw [load, if_neg h]

theorem bindingTableSettingsSet_encode (fw : Firmware) {model : BindingTable}
    (h : model.tableSeq ≠ 0) :
    (fw.bindingTableSettingsSet bindingTableSettingsName fun n =>
      .ok ((Snapshot.encode model.records model.tableSeq).toBytes.take n)).2 =
        { fw.ensureTableModelInitialized with tableModel := model } := by
  have hread : (Snapshot.encode model.records model.tableSeq).toBytes.take 414 =
      (Snapshot.encode model.records model.tableSeq).toBytes :=
    List.take_of_length_le (by rw [Snapshot.length_toBytes])
  simp only [Firmware.bindingTableSettingsSet, hread, Snapshot.ofBytes_toBytes,
    Snapshot.length_toBytes, Snapshot.decode_encode, load_self h, ne_eq, not_true_eq_false,
    if_false]

theorem Synced.reboot_eq {d : Device} (hd : d.Synced) : d.reboot = d := by
  obtain ⟨⟨model, initialized⟩, flash⟩ := d
  obtain ⟨hinit, hseq, hflash⟩ := hd
  obtain rfl : initialized = true := hinit
  rcases hflash with ⟨rfl, hmodel⟩ | hvalue
  · obtain rfl : model = BindingTable.init := hmodel
    rfl
  · obtain rfl : flash = some (Snapshot.encode model.records model.tableSeq).toBytes := hvalue
    have hset := bindingTableSettingsSet_encode Firmware.boot.bindingTableInit hseq
    simp only [reboot]
    rw [hset]
    rfl

theorem foldl_writeFlash_of_committed {cb : SaveCb} {model : BindingTable} {o : Outcome}
    (h : TableOp.Committed (some cb) model o) (flash : Option (List Byte)) :
    o.effects.foldl writeFlash flash =
      some (Snapshot.encode o.model.records o.model.tableSeq).toBytes := by
  rw [h.effects]
  rfl

theorem flash_of_failed_call (d : Device) (settingsSaveOne : SettingsSaveOne)
    (op : TableOp) (herr : (d.firmware.call settingsSaveOne op).err ≠ 0) :
    (d.step (.call settingsSaveOne op)).flash = d.flash := by
  show (d.firmware.call settingsSaveOne op).effects.foldl writeFlash d.flash = d.flash
  unfold Firmware.call at herr ⊢
  rcases TableOp.run_refused_or_committed_or_skipped (d.firmware.saveCb settingsSaveOne)
    d.firmware.tableModel op with h | h | h
  · rcases h.effects with ⟨heffects, -⟩ | ⟨cb, records, tableSeq, -, -, heffects⟩
    · rw [heffects]
      rfl
    · rw [heffects, List.foldl_cons, List.foldl_nil, writeFlash, if_neg h.err_ne]
  · exact absurd h.err_eq herr
  · rw [h.outcome_eq]
    rfl

theorem Synced.call {d : Device} (hd : d.Synced) (settingsSaveOne : SettingsSaveOne)
    (op : TableOp) : (d.step (.call settingsSaveOne op)).Synced := by
  have hcb : d.firmware.saveCb settingsSaveOne = some (persistTable settingsSaveOne) :=
    if_pos hd.initialized
  rcases TableOp.run_refused_or_committed_or_skipped (d.firmware.saveCb settingsSaveOne)
    d.firmware.tableModel op with h | h | h
  · have hflash := flash_of_failed_call d settingsSaveOne op h.err_ne
    have hmodel : (d.firmware.call settingsSaveOne op).model = d.firmware.tableModel := h.model_eq
    have hstep : d.step (.call settingsSaveOne op) =
        ⟨{ d.firmware with tableModel := (d.firmware.call settingsSaveOne op).model },
          (d.step (.call settingsSaveOne op)).flash⟩ := rfl
    rw [hstep, hmodel, hflash]
    exact hd
  · -- the save returned 0, so the store holds what RAM holds now
    refine ⟨hd.initialized, ?_, Or.inr ?_⟩
    · show (op.run (d.firmware.saveCb settingsSaveOne) d.firmware.tableModel).model.tableSeq ≠ 0
      rw [h.seq_eq, ← nextSeq_eq]
      exact nextSeq_ne_zero _
    · rw [hcb] at h
      have hflash := foldl_writeFlash_of_committed h d.flash
      rw [← hcb] at hflash
      exact hflash
  · have hstep : d.step (.call settingsSaveOne op) = d := by
      simp only [step, Firmware.call, h.outcome_eq, List.foldl_nil]
    rw [hstep]
    exact hd

theorem Synced.step {d : Device} (hd : d.Synced) (e : DeviceEvent) : (d.step e).Synced := by
  cases e with
  | call settingsSaveOne op => exact hd.call settingsSaveOne op
  | reboot =>
    show d.reboot.Synced
    rw [hd.reboot_eq]
    exact hd

theorem synced_init : init.Synced := by
  refine ⟨rfl, ?_, Or.inl ⟨rfl, rfl⟩⟩
  show (1 : BitVec 32) ≠ 0
  decide

end Device
end PartRack
