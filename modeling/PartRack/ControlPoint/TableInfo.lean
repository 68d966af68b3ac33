import Mathlib.Data.List.Chain
import PartRack.ControlPoint.Model

/-! When Table Info is notified. A frame leaves the table alone and says nothing about
it, or commits and announces the new table once, after its reply; a move of a block onto
itself is announced although it changes nothing. -/

namespace PartRack

namespace Request

theorem ofArgs_eq_moveBlock {op : BindingOp} {args : List Byte} {fromSlot toSlot len : Byte}
    (h : ofArgs op args = .mutate (.moveBlock fromSlot toSlot len)) :
    op = .moveBlock ∧ args = [fromSlot, toSlot, len] := by
  unfold ofArgs at h
  split at h
  all_goals first
    | (cases h; exact ⟨rfl, rfl⟩)
    | (split_ifs at h <;> cases h)
    | cases h

theorem ofFrame_eq_moveBlock {code : Byte} {args : List Byte} {fromSlot toSlot len : Byte}
    (h : ofFrame code args = .mutate (.moveBlock fromSlot toSlot len)) :
    code = BindingOp.moveBlock.code ∧ args = [fromSlot, toSlot, len] := by
  unfold ofFrame at h
  cases hop : BindingOp.ofCode? code with
  | none =>
    rw [hop] at h
    exact nomatch h
  | some op =>
    rw [hop] at h
    obtain ⟨rfl, hargs⟩ := ofArgs_eq_moveBlock h
    exact ⟨BindingOp.code_of_ofCode? hop, hargs⟩

end Request

namespace ControlPoint
open BindingTable

/-- A MOVE_BLOCK frame in range whose block stays where it is. -/
def IdleMoveFrame (frame : List Byte) : Prop :=
  ∃ slot len : Byte, frame = [BindingOp.moveBlock.code, slot, slot, len] ∧ ValidSlot slot ∧
    len ≠ 0 ∧ slot.toNat + len.toNat - 1 ≤ 25

theorem idleMoveFrame_iff (code : Byte) (args : List Byte) :
    IdleMoveFrame (code :: args) ↔
      ∃ op : TableOp, Request.ofFrame code args = .mutate op ∧ op.IdleMove := by
  constructor
  · rintro ⟨slot, len, hframe, hidle⟩
    obtain ⟨rfl, rfl⟩ := List.cons.inj hframe
    refine ⟨.moveBlock slot slot len, ?_, slot, len, rfl, hidle⟩
    rw [Request.ofFrame, BindingOp.ofCode?_code]
    rfl
  · rintro ⟨op, hreq, slot, len, rfl, hidle⟩
    obtain ⟨rfl, rfl⟩ := Request.ofFrame_eq_moveBlock hreq
    exact ⟨slot, len, rfl, hidle⟩

def tableInfos (log : List CpEvent) : List TableInfo :=
  log.filterMap fun
    | .tableInfo info => some info
    | _ => none

theorem tableInfos_append (a b : List CpEvent) :
    tableInfos (a ++ b) = tableInfos a ++ tableInfos b := List.filterMap_append

theorem tableInfos_map_table (effects : List Effect) :
    tableInfos (effects.map .table) = [] := by
  simp [tableInfos]

theorem tableInfos_readAllReplies (records : List SlotRecord) :
    tableInfos (readAllReplies records) = [] := by
  simp [tableInfos, readAllReplies]

/-! ## One frame -/

/-- Nothing happens to the table, and nothing is said about it. -/
structure Quiet (s t : ControlPoint) : Prop where
  table_eq : t.table = s.table
  log_eq : ∃ events, t.log = s.log ++ events ∧ tableInfos events = []

/-- One reply with status OK, and then the Table Info of the table as it is now. -/
def Announces (s t : ControlPoint) : Prop :=
  ∃ effects : List Effect, ∃ code, t.log = s.log ++
    (effects.map .table ++ [.notify code .ok [], .tableInfo t.table.getInfo])

theorem run_of_idleMove {op : TableOp} (h : op.IdleMove) (save : Option SaveCb)
    (model : BindingTable) : op.run save model = ⟨0, model, []⟩ := by
  rw [TableOp.run, (TableOp.plan_keep_iff _ _).mpr h]
  rfl

theorem handle_mutate_cases (save : Option SaveCb) {code : Byte} {args : List Byte} {op : TableOp}
    (hframe : Request.ofFrame code args = .mutate op) (s : ControlPoint) :
    Quiet s (handle save (code :: args) s) ∧ ¬op.IdleMove ∨
    Announces s (handle save (code :: args) s) ∧ ¬op.IdleMove ∧
      (handle save (code :: args) s).table.tableSeq = nextSeq s.table.tableSeq ∨
    Announces s (handle save (code :: args) s) ∧ op.IdleMove ∧
      (handle save (code :: args) s).table = s.table := by
  rw [handle_mutate save hframe]
  rcases TableOp.run_refused_or_committed_or_skipped save s.table op with h | h | h
  · refine Or.inl ⟨⟨h.model_eq, _, rfl, ?_⟩, ?_⟩
    · rw [tableInfos_append, tableInfos_map_table, mutateReplies_of_err_ne code h.err_ne]
      rfl
    · intro hidle
      have herr := h.err_ne
      rw [run_of_idleMove hidle] at herr
      exact herr rfl
  · refine Or.inr (Or.inl ⟨⟨(op.run save s.table).effects, code, ?_⟩, ?_, ?_⟩)
    · rw [mutateReplies_of_err_eq code h.err_eq]
    · intro hidle
      have hseq := h.seq_eq
      rw [← nextSeq_eq, run_of_idleMove hidle] at hseq
      exact nextSeq_ne_self _ hseq.symm
    · rw [nextSeq_eq]
      exact h.seq_eq
  · have herr := congrArg Outcome.err h.outcome_eq
    refine Or.inr (Or.inr ⟨⟨(op.run save s.table).effects, code, ?_⟩, h.idle,
      congrArg Outcome.model h.outcome_eq⟩)
    rw [mutateReplies_of_err_eq code herr]

theorem handle_cases (save : Option SaveCb) (frame : List Byte) (s : ControlPoint) :
    Quiet s (handle save frame s) ∧ ¬IdleMoveFrame frame ∨
    Announces s (handle save frame s) ∧ ¬IdleMoveFrame frame ∧
      (handle save frame s).table.tableSeq = nextSeq s.table.tableSeq ∨
    Announces s (handle save frame s) ∧ IdleMoveFrame frame ∧
      (handle save frame s).table = s.table := by
  cases frame with
  | nil =>
    refine Or.inl ⟨⟨rfl, [], (List.append_nil _).symm, rfl⟩, ?_⟩
    rintro ⟨slot, len, hframe, -⟩
    exact nomatch hframe
  | cons code args =>
    rw [idleMoveFrame_iff]
    cases hframe : Request.ofFrame code args with
    | mutate op =>
      have hidle : (∃ o : TableOp, Request.mutate op = .mutate o ∧ o.IdleMove) ↔ op.IdleMove := by
        simp
      rw [hidle]
      exact handle_mutate_cases save hframe s
    | readOne slot =>
      rw [handle_eq_answer, hframe]
      exact Or.inl ⟨⟨rfl, _, rfl, rfl⟩, by simp⟩
    | readAll =>
      rw [handle_eq_answer, hframe]
      exact Or.inl ⟨⟨rfl, _, rfl, tableInfos_readAllReplies _⟩, by simp⟩
    | malformed =>
      rw [handle_eq_answer, hframe]
      exact Or.inl ⟨⟨rfl, _, rfl, rfl⟩, by simp⟩

/-- The rule for Table Info: it is sent exactly when the sequence number changes, and
then once, after the one reply, which has status OK. -/
structure Announced (save : Option SaveCb) (frame : List Byte) (table : BindingTable) : Prop where
  iff_changed : tableInfos (handle save frame ⟨table, []⟩).log ≠ [] ↔
    (handle save frame ⟨table, []⟩).table.tableSeq ≠ table.tableSeq
  once : tableInfos (handle save frame ⟨table, []⟩).log = [] ∨
    ∃ effects : List Effect, ∃ code info, (handle save frame ⟨table, []⟩).log =
      effects.map .table ++ [.notify code .ok [], .tableInfo info]

theorem Announces.tableInfos_eq {table : BindingTable} {t : ControlPoint}
    (h : Announces ⟨table, []⟩ t) : tableInfos t.log = [t.table.getInfo] := by
  obtain ⟨effects, code, hlog⟩ := h
  rw [hlog, List.nil_append, tableInfos_append, tableInfos_map_table]
  rfl

theorem Announces.once {table : BindingTable} {t : ControlPoint} (h : Announces ⟨table, []⟩ t) :
    ∃ effects : List Effect, ∃ code info,
      t.log = effects.map .table ++ [.notify code .ok [], .tableInfo info] := by
  obtain ⟨effects, code, hlog⟩ := h
  exact ⟨effects, code, _, hlog⟩

theorem announced_iff (save : Option SaveCb) (frame : List Byte) (table : BindingTable) :
    Announced save frame table ↔ ¬IdleMoveFrame frame := by
  rcases handle_cases save frame ⟨table, []⟩ with
    ⟨⟨htable, events, hlog, hinfos⟩, hidle⟩ | ⟨hann, hidle, hseq⟩ | ⟨hann, hidle, htable⟩
  · rw [List.nil_append] at hlog
    refine iff_of_true ⟨?_, Or.inl (by rw [hlog, hinfos])⟩ hidle
    rw [hlog, hinfos, htable]
    exact iff_of_false (fun h => h rfl) (fun h => h rfl)
  · refine iff_of_true ⟨?_, Or.inr hann.once⟩ hidle
    rw [hann.tableInfos_eq, hseq]
    exact iff_of_true (List.cons_ne_nil _ _) (nextSeq_ne_self _)
  · refine iff_of_false (fun h => ?_) (not_not_intro hidle)
    have hchanged := h.iff_changed.mp (by rw [hann.tableInfos_eq]; exact List.cons_ne_nil _ _)
    exact hchanged (congrArg BindingTable.tableSeq htable)

/-! ## Runs of frames -/

abbrev FrameWrite := Option SaveCb × List Byte

def handleAll (writes : List FrameWrite) (s : ControlPoint) : ControlPoint :=
  writes.foldl (fun s w => handle w.1 w.2 s) s

/-- The Table Infos sent so far differ from one to the next, and the last one is the
table's own. -/
structure InfoChain (s : ControlPoint) : Prop where
  chain : (tableInfos s.log).IsChain fun a b => a.tableSeqLe ≠ b.tableSeqLe
  last : ∀ info ∈ (tableInfos s.log).getLast?, info.tableSeqLe = s.table.tableSeq

theorem InfoChain.handle {s : ControlPoint} (hs : InfoChain s) (save : Option SaveCb)
    {frame : List Byte} (hframe : ¬IdleMoveFrame frame) : InfoChain (handle save frame s) := by
  rcases handle_cases save frame s with
    ⟨⟨htable, events, hlog, hinfos⟩, -⟩ | ⟨⟨effects, code, hlog⟩, -, hseq⟩ | ⟨-, hidle, -⟩
  · have heq : tableInfos (ControlPoint.handle save frame s).log = tableInfos s.log := by
      rw [hlog, tableInfos_append, hinfos, List.append_nil]
    refine ⟨?_, ?_⟩
    · rw [heq]
      exact hs.chain
    · rw [heq, htable]
      exact hs.last
  · have heq : tableInfos (ControlPoint.handle save frame s).log =
        tableInfos s.log ++ [(ControlPoint.handle save frame s).table.getInfo] := by
      rw [hlog, tableInfos_append, tableInfos_append, tableInfos_map_table]
      rfl
    refine ⟨?_, ?_⟩
    · rw [heq]
      refine hs.chain.append (List.isChain_singleton _) ?_
      intro a ha b hb
      obtain rfl := Option.some.inj hb
      rw [hs.last a ha]
      intro hsame
      exact nextSeq_ne_self _ (hseq.symm.trans hsame.symm)
    · rw [heq, List.getLast?_append, List.getLast?_singleton]
      intro info hinfo
      obtain rfl := Option.some.inj hinfo
      rfl
  · exact absurd hidle hframe

theorem infoChain_handleAll {writes : List FrameWrite} (h : ∀ w ∈ writes, ¬IdleMoveFrame w.2)
    (table : BindingTable) : InfoChain (handleAll writes ⟨table, []⟩) := by
  have hinit : InfoChain ⟨table, []⟩ := ⟨List.isChain_nil, by simp [tableInfos]⟩
  exact List.foldlRecOn writes _ hinit fun _ hs w hw => hs.handle w.1 (h w hw)

/-- Over a run of frames the rule holds at each of them, and no two Table Infos in a row
carry the same number, exactly when no frame moves a block onto itself. -/
theorem announced_run_iff (table : BindingTable) (writes : List FrameWrite) :
    ((∀ before w after, writes = before ++ w :: after →
        Announced w.1 w.2 (handleAll before ⟨table, []⟩).table) ∧
      (tableInfos (handleAll writes ⟨table, []⟩).log).IsChain
        fun a b => a.tableSeqLe ≠ b.tableSeqLe) ↔
    ∀ w ∈ writes, ¬IdleMoveFrame w.2 := by
  constructor
  · rintro ⟨hrule, -⟩ w hw
    obtain ⟨before, after, hsplit⟩ := List.append_of_mem hw
    exact (announced_iff _ _ _).mp (hrule before w after hsplit)
  · intro h
    refine ⟨?_, (infoChain_handleAll h table).chain⟩
    intro before w after hsplit
    exact (announced_iff _ _ _).mpr (h w (by rw [hsplit]; simp))

theorem not_announced_idleMove :
    ¬Announced (some fun _ _ => 0) [0x22, 0x01, 0x01, 0x01] BindingTable.init := by
  rw [announced_iff, not_not]
  exact ⟨0x01, 0x01, rfl, by decide, by decide, by decide⟩

end ControlPoint
end PartRack
