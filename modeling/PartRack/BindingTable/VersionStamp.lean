import PartRack.AdvPayload
import PartRack.BindingTable.Commit
import PartRack.Lib.OneBased

/-! `table_seq` as a version stamp. Over a run of operations it moves by one step of a
counter on 1 .. 2^32 - 1 for each commit, and nothing else changes the table. -/

namespace PartRack
open BindingTable

abbrev TableCall := Option SaveCb × TableOp

def Effect.isStore : Effect → Bool
  | .store .. => true
  | .save .. => false

namespace TableRun

def run (model : BindingTable) (calls : List TableCall) : BindingTable :=
  calls.foldl (fun model c => (c.2.run c.1 model).model) model

/-- How often the run stores a new table. -/
def commits : BindingTable → List TableCall → ℕ
  | _, [] => 0
  | model, c :: calls =>
    let o := c.2.run c.1 model
    o.effects.countP Effect.isStore + commits o.model calls

theorem run_append (model : BindingTable) (a b : List TableCall) :
    run model (a ++ b) = run (run model a) b := List.foldl_append

theorem call_cases (save : Option SaveCb) (model : BindingTable) (op : TableOp) :
    (op.run save model).effects.countP Effect.isStore = 0 ∧
        (op.run save model).model = model ∨
      (op.run save model).effects.countP Effect.isStore = 1 ∧
        (op.run save model).model.tableSeq = nextSeq model.tableSeq := by
  rcases TableOp.run_refused_or_committed_or_skipped save model op with h | h | h
  · left
    refine ⟨?_, h.model_eq⟩
    rcases h.effects with ⟨heffects, -⟩ | ⟨cb, records, tableSeq, -, -, heffects⟩
    · rw [heffects]
      rfl
    · rw [heffects]
      rfl
  · right
    refine ⟨?_, h.seq_eq.trans (nextSeq_eq _).symm⟩
    rw [h.effects]
    cases save <;> rfl
  · left
    rw [h.outcome_eq]
    exact ⟨rfl, rfl⟩

theorem run_tableSeq (model : BindingTable) (calls : List TableCall) :
    (run model calls).tableSeq = nextSeq^[commits model calls] model.tableSeq := by
  induction calls generalizing model with
  | nil => rfl
  | cons c calls ih =>
    have hrun : run model (c :: calls) = run (c.2.run c.1 model).model calls := rfl
    rw [hrun, ih, commits]
    rcases call_cases c.1 model c.2 with ⟨hcount, hmodel⟩ | ⟨hcount, hseq⟩
    · rw [hcount, hmodel, Nat.zero_add]
    · rw [hcount, hseq, Nat.add_comm, Function.iterate_succ_apply]

theorem run_of_commits_eq_zero (model : BindingTable) (calls : List TableCall)
    (h : commits model calls = 0) : run model calls = model := by
  induction calls generalizing model with
  | nil => rfl
  | cons c calls ih =>
    obtain ⟨hcount, hrest⟩ := Nat.add_eq_zero_iff.mp h
    have hmodel : (c.2.run c.1 model).model = model := by
      rcases call_cases c.1 model c.2 with ⟨-, hmodel⟩ | ⟨hone, -⟩
      · exact hmodel
      · exact absurd (hcount.symm.trans hone) Nat.zero_ne_one
    have hrun : run model (c :: calls) = run (c.2.run c.1 model).model calls := rfl
    rw [hrun, ih _ hrest, hmodel]

theorem iterate_nextSeq_ne_zero {s : BitVec 32} (hs : s ≠ 0) (n : ℕ) : nextSeq^[n] s ≠ 0 := by
  cases n with
  | zero => exact hs
  | succ n =>
    rw [Function.iterate_succ_apply']
    exact nextSeq_ne_zero _

/-! ## The number of steps -/

theorem toNat_nextSeq (s : BitVec 32) :
    (nextSeq s).toNat = OneBased.next (2 ^ 32 - 1) s.toNat := by
  rw [nextSeq_eq, OneBased.next]
  by_cases h : s = 0xFFFFFFFF
  · subst h
    rfl
  · have hne : s.toNat ≠ 2 ^ 32 - 1 := fun heq => h (BitVec.eq_of_toNat_eq heq)
    rw [if_neg h, if_neg hne]
    have hlt := s.isLt
    rw [BitVec.toNat_add_of_lt]
    · rfl
    · show s.toNat + 1 < 2 ^ 32
      omega

theorem one_le_toNat {s : BitVec 32} (hs : s ≠ 0) : 1 ≤ s.toNat := by
  have hne : s.toNat ≠ 0 := fun h => hs (BitVec.eq_of_toNat_eq h)
  omega

theorem toNat_iterate_nextSeq {s : BitVec 32} (hs : s ≠ 0) (n : ℕ) :
    (nextSeq^[n] s).toNat = OneBased.after (2 ^ 32 - 1) s.toNat n := by
  have hsemi : Function.Semiconj BitVec.toNat nextSeq (OneBased.next (2 ^ 32 - 1)) :=
    toNat_nextSeq
  have hle : s.toNat ≤ 2 ^ 32 - 1 := Nat.le_pred_of_lt s.isLt
  rw [hsemi.iterate_right n s, OneBased.iterate_next (one_le_toNat hs) hle]

theorem iterate_nextSeq_eq_self_iff {s : BitVec 32} (hs : s ≠ 0) {n : ℕ}
    (hn : n < 2 ^ 32 - 1) : nextSeq^[n] s = s ↔ n = 0 := by
  have hle : s.toNat ≤ 2 ^ 32 - 1 := Nat.le_pred_of_lt s.isLt
  rw [← BitVec.toNat_inj, toNat_iterate_nextSeq hs,
    OneBased.after_eq_self_iff (one_le_toNat hs) hle hn]

/-- The wrap skips zero, so the low half is one step ahead after it; it takes 65535
commits to repeat. -/
theorem iterate_nextSeq_mod_ne {s : BitVec 32} (hs : s ≠ 0) {n : ℕ} (hn : 1 ≤ n)
    (hn' : n ≤ 65534) : (nextSeq^[n] s).toNat % 65536 ≠ s.toNat % 65536 := by
  have hle : s.toNat ≤ 2 ^ 32 - 1 := Nat.le_pred_of_lt s.isLt
  have hdvd : 65536 ∣ 2 ^ 32 - 1 + 1 := by decide
  have hlt : n + 1 < 65536 := Nat.lt_succ_of_le (Nat.succ_le_succ hn')
  rw [toNat_iterate_nextSeq hs]
  exact OneBased.after_mod_ne (one_le_toNat hs) hle hdvd hn hlt

/-! ## Two points of a run -/

/-- What the stamps of two points of a run say, the second one `n` commits later. -/
structure Stamped (p q : BindingTable) (n : ℕ) : Prop where
  ne_zero : p.tableSeq ≠ 0 ∧ q.tableSeq ≠ 0
  exact : n < 2 ^ 32 - 1 →
    (q.tableSeq = p.tableSeq ↔ n = 0) ∧ (q.tableSeq = p.tableSeq → q.records = p.records)
  advertised : 1 ≤ n → n ≤ 65534 → ∀ a b : AdvPayloadInput,
    a.tableSeq = p.tableSeq → b.tableSeq = q.tableSeq →
      AdvPayload.seqBytes (AdvPayload.build (some a)) ≠
        AdvPayload.seqBytes (AdvPayload.build (some b))

/-- Over a run from any table with a number other than 0, two points have the same number
exactly when no commit lies between them, and the low halves that the advertisement
carries differ after any 1 .. 65534 commits. -/
theorem run_stamped (model : BindingTable) (h : model.tableSeq ≠ 0)
    (before between : List TableCall) :
    Stamped (run model before) (run model (before ++ between))
      (commits (run model before) between) := by
  have hp : (run model before).tableSeq ≠ 0 := by
    rw [run_tableSeq]
    exact iterate_nextSeq_ne_zero h _
  rw [run_append]
  have hseq := run_tableSeq (run model before) between
  refine ⟨⟨hp, ?_⟩, ?_, ?_⟩
  · rw [hseq]
    exact iterate_nextSeq_ne_zero hp _
  · intro hn
    have hiff := iterate_nextSeq_eq_self_iff hp hn
    rw [hseq]
    refine ⟨hiff, fun heq => ?_⟩
    rw [run_of_commits_eq_zero _ _ (hiff.mp heq)]
  · intro hn hn' a b ha hb hbytes
    have hvalue := congrArg LittleEndian.value hbytes
    rw [AdvPayload.value_seqBytes_build, AdvPayload.value_seqBytes_build, ha, hb, hseq] at hvalue
    exact iterate_nextSeq_mod_ne hp hn hn' hvalue.symm

theorem run_stamped_wrap :
    Stamped (run ⟨emptyRecords, 0xFFFFFFFF⟩ [(none, .clearOne 1)])
      (run ⟨emptyRecords, 0xFFFFFFFF⟩ ([(none, .clearOne 1)] ++ [(none, .clearOne 1)]))
      (commits (run ⟨emptyRecords, 0xFFFFFFFF⟩ [(none, .clearOne 1)]) [(none, .clearOne 1)]) :=
  run_stamped ⟨emptyRecords, 0xFFFFFFFF⟩ (by decide) [(none, .clearOne 1)]
    [(none, .clearOne 1)]

end TableRun
end PartRack
