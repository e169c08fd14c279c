import TensorCash.Primitives.Serialize
import TensorCash.Lib.Overlay
import Mathlib.Data.List.Lex
import Mathlib.Data.List.Nodup

/-! `modeldb.cpp`: buffered writes, and the value that a key had on disk when the open block first
touched it. -/

namespace TensorCash

/-- The bytes of a key: the prefix of its family and its fields. -/
structure DbKey where
  bytes : Bytes
deriving DecidableEq

instance : LinearOrder DbKey :=
  LinearOrder.lift' (fun k => k.bytes.map UInt8.toNat) fun a b same => by
    cases a
    cases b
    simpa using List.map_injective_iff.mpr (fun _ _ => UInt8.toNat_inj.mp) same

def MODELDB_UNDO_KEEP_BLOCKS : Int := 50000

/-- What a key held before a block first touched it. -/
structure CModelUndoEntry where
  key : DbKey
  value : Option Bytes
deriving DecidableEq

structure CModelBlockUndo where
  height : Int
  hash : Uint256
  parent_height : Int
  parent_hash : Uint256
  entries : List CModelUndoEntry := []
deriving DecidableEq

structure ModelDisk where
  data : OrdMap DbKey Bytes := ∅
  undo : OrdMap Int CModelBlockUndo := ∅
  syncedTip : Option (Int × Uint256) := none

structure CModelActiveBlock where
  undo : CModelBlockUndo
  batch : List (DbKey × Option Bytes) := []
  captured : List DbKey := []
  overlay : OrdMap DbKey (Option Bytes) := ∅

structure CModelDB where
  db : ModelDisk
  m_active : Option CModelActiveBlock := none

def CModelActiveBlock.captureUndoFirstTouch (ab : CModelActiveBlock) (db : ModelDisk) (key : DbKey) :
    CModelActiveBlock :=
  if key ∈ ab.captured then ab
  else
    { ab with
      captured := key :: ab.captured
      undo := { ab.undo with entries := ab.undo.entries ++ [⟨key, db.data.get? key⟩] } }

/-- `StageWrite` with a value, `StageErase` without. -/
def CModelActiveBlock.stage (ab : CModelActiveBlock) (db : ModelDisk) (key : DbKey)
    (value : Option Bytes) : CModelActiveBlock :=
  let ab := ab.captureUndoFirstTouch db key
  { ab with batch := ab.batch ++ [(key, value)], overlay := ab.overlay.insert key value }

namespace CModelDB

def put (m : CModelDB) (key : DbKey) (value : Option Bytes) : CModelDB :=
  match m.m_active with
  | some ab => { m with m_active := some (ab.stage m.db key value) }
  | none => { m with db := { m.db with data := m.db.data.set key value } }

def read (m : CModelDB) (key : DbKey) : Option Bytes :=
  match m.m_active with
  | some ab => Overlay.read ab.overlay (m.db.data.get? key) key
  | none => m.db.data.get? key

def beginBlock (m : CModelDB) (height : Int) (hash : Uint256) (parent_height : Int)
    (parent_hash : Uint256) : CModelDB :=
  { m with m_active := some { undo := { height, hash, parent_height, parent_hash } } }

def resumeBlock (m : CModelDB) (height : Int) (hash : Uint256) (parent_height : Int)
    (parent_hash : Uint256) : Option CModelDB :=
  match m.db.undo.get? height with
  | none => none
  | some existing =>
    if existing.height ≠ height ∨ existing.hash ≠ hash then none
    else
      some { m with
        m_active := some
          { undo := { height, hash, parent_height, parent_hash, entries := existing.entries }
            captured := existing.entries.map CModelUndoEntry.key } }

def compact (undo : OrdMap Int CModelBlockUndo) (height : Int) : OrdMap Int CModelBlockUndo :=
  if MODELDB_UNDO_KEEP_BLOCKS < height then undo.erase (height - MODELDB_UNDO_KEEP_BLOCKS) else undo

def commitBlock (m : CModelDB) : CModelDB :=
  match m.m_active with
  | none => m
  | some ab =>
    { db :=
        { data := Overlay.replay ab.batch m.db.data
          undo := compact (m.db.undo.insert ab.undo.height ab.undo) ab.undo.height
          syncedTip := some (ab.undo.height, ab.undo.hash) } }

end CModelDB

/-- `ApplyUndoAndRewindTip`. A block without a parent takes the marker away. -/
def ModelDisk.applyUndoAndRewindTip (db : ModelDisk) (undo : CModelBlockUndo) : ModelDisk where
  data := Overlay.replay (undo.entries.map fun e => (e.key, e.value)) db.data
  undo := db.undo.erase undo.height
  syncedTip :=
    if 0 < undo.parent_height ∨ undo.parent_hash ≠ 0 then some (undo.parent_height, undo.parent_hash)
    else none

inductive ModelDbOp where
  | write (key : DbKey) (value : Bytes)
  | erase (key : DbKey)
  | read (key : DbKey)

def ModelDbOp.change : ModelDbOp → Option (DbKey × Option Bytes)
  | .write key value => some (key, some value)
  | .erase key => some (key, none)
  | .read _ => none

def CModelDB.perform (m : CModelDB) (op : ModelDbOp) : CModelDB :=
  match op with
  | .write key value => m.put key (some value)
  | .erase key => m.put key none
  | .read _ => m

structure JournaledBlock where
  hash : Uint256
  ops : List ModelDbOp
  reopened : Option (List ModelDbOp) := none

def CModelDB.applyBlock (m : CModelDB) (parent_height : Int) (parent_hash : Uint256)
    (block : JournaledBlock) : Option CModelDB :=
  let committed :=
    (block.ops.foldl perform (m.beginBlock (parent_height + 1) block.hash parent_height
      parent_hash)).commitBlock
  match block.reopened with
  | none => some committed
  | some ops =>
    (committed.resumeBlock (parent_height + 1) block.hash parent_height parent_hash).map fun m =>
      (ops.foldl perform m).commitBlock

def CModelDB.applyBlocks (m : CModelDB) (parent_height : Int) (parent_hash : Uint256) :
    List JournaledBlock → Option CModelDB
  | [] => some m
  | block :: blocks =>
    (m.applyBlock parent_height parent_hash block).bind fun m => m.applyBlocks (parent_height + 1) block.hash blocks

def heightsAbove : Int → Nat → List Int
  | _, 0 => []
  | height, n + 1 => heightsAbove (height + 1) n ++ [height + 1]

def ModelDisk.rewind (db : ModelDisk) : List Int → Option ModelDisk
  | [] => some db
  | height :: rest => (db.undo.get? height).bind fun undo => (db.applyUndoAndRewindTip undo).rewind rest

theorem ModelDisk.rewind_append (db : ModelDisk) (first second : List Int) :
    db.rewind (first ++ second) = (db.rewind first).bind fun db => db.rewind second := by
  induction first generalizing db with
  | nil => rfl
  | cons height rest ih =>
    rw [List.cons_append, rewind, rewind, Option.bind_assoc]
    exact congrArg _ (funext fun undo => ih _)

/-- Notes take a registry back: distinct keys with former values, every other key unchanged. -/
structure Covers (entries : List CModelUndoEntry) (before after : OrdMap DbKey Bytes) : Prop where
  distinct : (entries.map CModelUndoEntry.key).Nodup
  former : ∀ e ∈ entries, e.value = before.get? e.key
  others : ∀ key ∉ entries.map CModelUndoEntry.key, after.get? key = before.get? key

variable {before : OrdMap DbKey Bytes} {ab : CModelActiveBlock} {disk : ModelDisk}
  {undo : CModelBlockUndo}

theorem Covers.replay {entries : List CModelUndoEntry} {after : OrdMap DbKey Bytes}
    (covers : Covers entries before after) :
    Overlay.replay (entries.map fun e => (e.key, e.value)) after = before := by
  have keys : (entries.map fun e => (e.key, e.value)).map Prod.fst = entries.map CModelUndoEntry.key := by
    rw [List.map_map]
    rfl
  ext1 key
  rw [Overlay.get?_replay _ (by rw [keys]; exact covers.distinct)]
  cases found : OrdMap.lookup key (entries.map fun e => (e.key, e.value)) with
  | some value =>
    obtain ⟨e, mem, same⟩ := List.mem_map.mp (OrdMap.mem_of_lookup found)
    obtain ⟨rfl, rfl⟩ := Prod.mk.inj same
    exact covers.former e mem
  | none =>
    have unlisted := Overlay.lookup_eq_none_iff.mp found
    rw [keys] at unlisted
    exact covers.others key unlisted

def CModelActiveBlock.Mirrors (ab : CModelActiveBlock) : Prop :=
  ∀ data, Overlay.replay ab.batch data = Overlay.commit ab.overlay data

theorem CModelActiveBlock.Mirrors.stage (mirrors : ab.Mirrors) (disk : ModelDisk)
    (key : DbKey) (value : Option Bytes) : (ab.stage disk key value).Mirrors := by
  intro data
  unfold CModelActiveBlock.stage CModelActiveBlock.captureUndoFirstTouch
  -- The capture touches neither the batch nor the overlay.
  split_ifs
  · rw [Overlay.replay_append, mirrors, Overlay.commit_insert]
    rfl
  · dsimp only
    rw [Overlay.replay_append, mirrors, Overlay.commit_insert]
    rfl

/-- An open block: its notes are right, and the batch mirrors the overlay. -/
structure Journals (before : OrdMap DbKey Bytes) (disk : ModelDisk) (ab : CModelActiveBlock) : Prop where
  covers : Covers ab.undo.entries before disk.data
  captured : ∀ key, key ∈ ab.captured ↔ key ∈ ab.undo.entries.map CModelUndoEntry.key
  overlay : ∀ key ∉ ab.undo.entries.map CModelUndoEntry.key, ab.overlay.get? key = none
  mirrors : ab.Mirrors

namespace Journals

theorem capture (journals : Journals before disk ab) (key : DbKey) :
    Journals before disk (ab.captureUndoFirstTouch disk key) ∧
      key ∈ (ab.captureUndoFirstTouch disk key).undo.entries.map CModelUndoEntry.key := by
  unfold CModelActiveBlock.captureUndoFirstTouch
  split_ifs with known
  · exact ⟨journals, (journals.captured key).mp known⟩
  · have unlisted := mt (journals.captured key).mpr known
    have keys : (ab.undo.entries ++ [(⟨key, disk.data.get? key⟩ : CModelUndoEntry)]).map CModelUndoEntry.key =
        ab.undo.entries.map CModelUndoEntry.key ++ [key] := by
      rw [List.map_append]
      rfl
    refine ⟨⟨⟨?_, fun e mem => ?_, fun other outside => ?_⟩, fun other => ?_, fun other outside => ?_,
      journals.mirrors⟩, ?_⟩
    · rw [keys, ← List.concat_eq_append]
      exact List.Nodup.concat unlisted journals.covers.distinct
    · rcases List.mem_append.mp mem with old | new
      · exact journals.covers.former e old
      · rw [List.mem_singleton.mp new]
        exact journals.covers.others key unlisted
    · rw [keys] at outside
      exact journals.covers.others other fun mem => outside (List.mem_append_left _ mem)
    · rw [keys, List.mem_cons, List.mem_append, List.mem_singleton, journals.captured, or_comm]
    · rw [keys] at outside
      exact journals.overlay other fun mem => outside (List.mem_append_left _ mem)
    · rw [keys]
      exact List.mem_append_right _ List.mem_cons_self

theorem stage (journals : Journals before disk ab) (key : DbKey) (value : Option Bytes) :
    Journals before disk (ab.stage disk key value) := by
  obtain ⟨noted, listed⟩ := journals.capture key
  refine ⟨noted.covers, noted.captured, fun other outside => ?_, journals.mirrors.stage disk key value⟩
  have differ : other ≠ key := fun same => outside (same ▸ listed)
  exact (OrdMap.get?_insert_of_ne _ _ _ differ).trans (noted.overlay other outside)

theorem committed (journals : Journals before disk ab) :
    Covers ab.undo.entries before (Overlay.replay ab.batch disk.data) := by
  refine ⟨journals.covers.distinct, journals.covers.former, fun key outside => ?_⟩
  rw [journals.mirrors, Overlay.get?_commit, Overlay.read, journals.overlay key outside]
  exact journals.covers.others key outside

end Journals

def CModelActiveBlock.stageAll (ab : CModelActiveBlock) (disk : ModelDisk) (ops : List ModelDbOp) :
    CModelActiveBlock :=
  (ops.filterMap ModelDbOp.change).foldl (fun ab change => ab.stage disk change.1 change.2) ab

theorem CModelDB.foldl_perform (disk : ModelDisk) (ab : CModelActiveBlock) (ops : List ModelDbOp) :
    ops.foldl perform { db := disk, m_active := some ab } =
      { db := disk, m_active := some (ab.stageAll disk ops) } := by
  induction ops generalizing ab with
  | nil => rfl
  | cons op ops ih => cases op <;> exact ih _

theorem Journals.stageAll (journals : Journals before disk ab) (ops : List ModelDbOp) :
    Journals before disk (ab.stageAll disk ops) := by
  unfold CModelActiveBlock.stageAll
  induction ops.filterMap ModelDbOp.change generalizing ab with
  | nil => exact journals
  | cons change rest ih => exact ih (journals.stage change.1 change.2)

theorem CModelActiveBlock.undo_stage (ab : CModelActiveBlock) (disk : ModelDisk) (key : DbKey)
    (value : Option Bytes) : ∃ entries, (ab.stage disk key value).undo = { ab.undo with entries } := by
  unfold stage captureUndoFirstTouch
  dsimp only
  split_ifs
  · exact ⟨_, rfl⟩
  · exact ⟨_, rfl⟩

theorem CModelActiveBlock.undo_stageAll (ab : CModelActiveBlock) (disk : ModelDisk) (ops : List ModelDbOp) :
    (ab.stageAll disk ops).undo = { ab.undo with entries := (ab.stageAll disk ops).undo.entries } := by
  unfold stageAll
  induction ops.filterMap ModelDbOp.change generalizing ab with
  | nil => rfl
  | cons change rest ih =>
    obtain ⟨entries, same⟩ := ab.undo_stage disk change.1 change.2
    rw [List.foldl_cons, ih, same]

theorem CModelActiveBlock.batch_stageAll (ab : CModelActiveBlock) (ops : List ModelDbOp) :
    (ab.stageAll disk ops).batch = ab.batch ++ ops.filterMap ModelDbOp.change := by
  unfold stageAll
  induction ops.filterMap ModelDbOp.change generalizing ab with
  | nil => rw [List.foldl_nil, List.append_nil]
  | cons change rest ih =>
    rw [List.foldl_cons, ih]
    unfold stage captureUndoFirstTouch
    split_ifs
    · exact List.append_assoc _ _ _
    · exact List.append_assoc _ _ _

theorem CModelActiveBlock.Mirrors.stageAll (mirrors : ab.Mirrors) (ops : List ModelDbOp) :
    (ab.stageAll disk ops).Mirrors := by
  unfold CModelActiveBlock.stageAll
  induction ops.filterMap ModelDbOp.change generalizing ab with
  | nil => exact mirrors
  | cons change rest ih => exact ih (mirrors.stage disk change.1 change.2)

theorem CModelActiveBlock.Mirrors.read (mirrors : ab.Mirrors) (fresh : ab.batch = [])
    (ops : List ModelDbOp) (key : DbKey) :
    (ops.foldl CModelDB.perform { db := disk, m_active := some ab }).read key =
      (Overlay.replay (ops.filterMap ModelDbOp.change) disk.data).get? key := by
  rw [CModelDB.foldl_perform]
  have batch : Overlay.replay (ab.stageAll disk ops).batch disk.data = _ := mirrors.stageAll ops disk.data
  rw [CModelActiveBlock.batch_stageAll, fresh, List.nil_append] at batch
  rw [batch, Overlay.get?_commit]
  rfl

theorem journals_beginBlock (disk : ModelDisk) (undo : CModelBlockUndo) (none_yet : undo.entries = []) :
    Journals disk.data disk { undo } := by
  refine ⟨⟨?_, ?_, fun _ _ => rfl⟩, ?_, fun _ _ => rfl, fun _ => rfl⟩ <;> simp [none_yet]

theorem journals_resumeBlock
    (covers : Covers undo.entries before disk.data) :
    Journals before disk { undo, captured := undo.entries.map CModelUndoEntry.key } :=
  ⟨covers, fun _ => Iff.rfl, fun _ _ => rfl, fun _ => rfl⟩

/-- What an applied block leaves: its record, its notes, and the records that are not pruned. -/
structure BlockApplied (m next : CModelDB) (undo : CModelBlockUndo) : Prop where
  covers : Covers undo.entries m.db.data next.db.data
  record : next.db.undo.get? undo.height = some undo
  older : ∀ height ≠ undo.height, height ≠ undo.height - MODELDB_UNDO_KEEP_BLOCKS →
    next.db.undo.get? height = m.db.undo.get? height

theorem CModelDB.get?_compact_insert (records : OrdMap Int CModelBlockUndo) (undo : CModelBlockUndo) :
    (compact (records.insert undo.height undo) undo.height).get? undo.height = some undo ∧
      ∀ height ≠ undo.height, height ≠ undo.height - MODELDB_UNDO_KEEP_BLOCKS →
        (compact (records.insert undo.height undo) undo.height).get? height = records.get? height := by
  unfold compact
  split_ifs
  · have differ : undo.height ≠ undo.height - MODELDB_UNDO_KEEP_BLOCKS := by
      unfold MODELDB_UNDO_KEEP_BLOCKS
      omega
    refine ⟨?_, fun height own old => ?_⟩
    · rw [OrdMap.get?_erase_of_ne _ _ differ, OrdMap.get?_insert_self]
    · rw [OrdMap.get?_erase_of_ne _ _ old, OrdMap.get?_insert_of_ne _ _ _ own]
  · exact ⟨OrdMap.get?_insert_self _ _ _, fun height own _ => OrdMap.get?_insert_of_ne _ _ _ own⟩

theorem Journals.commitBlock
    (journals : Journals before disk ab) :
    Covers ab.undo.entries before (CModelDB.commitBlock { db := disk, m_active := some ab }).db.data ∧
      (CModelDB.commitBlock { db := disk, m_active := some ab }).db.undo.get? ab.undo.height = some ab.undo ∧
      ∀ height ≠ ab.undo.height, height ≠ ab.undo.height - MODELDB_UNDO_KEEP_BLOCKS →
        (CModelDB.commitBlock { db := disk, m_active := some ab }).db.undo.get? height =
          disk.undo.get? height := ⟨journals.committed, CModelDB.get?_compact_insert disk.undo ab.undo⟩

theorem CModelDB.resumeBlock_of_record {m : CModelDB}
    (record : m.db.undo.get? undo.height = some undo) :
    m.resumeBlock undo.height undo.hash undo.parent_height undo.parent_hash = some { m with
        m_active := some { undo, captured := undo.entries.map CModelUndoEntry.key } } := by
  rw [resumeBlock, record]
  simp only [ne_eq, not_true_eq_false, or_self, if_false]

theorem CModelDB.applyBlock_applied (m : CModelDB) (parent_height : Int) (parent_hash : Uint256)
    (block : JournaledBlock) : ∃ next entries, m.applyBlock parent_height parent_hash block = some next ∧
      BlockApplied m next
        { height := parent_height + 1, hash := block.hash, parent_height, parent_hash, entries } := by
  -- The first opening starts from the disk itself.
  let first : CModelActiveBlock :=
    { undo := { height := parent_height + 1, hash := block.hash, parent_height, parent_hash } }
  have journals : Journals m.db.data m.db (first.stageAll m.db block.ops) :=
    (journals_beginBlock m.db first.undo rfl).stageAll block.ops
  obtain ⟨covers, record, older⟩ := journals.commitBlock
  rw [first.undo_stageAll m.db block.ops] at covers record older
  unfold applyBlock beginBlock
  dsimp only
  rw [foldl_perform]
  generalize commitBlock { db := m.db, m_active := some (first.stageAll m.db block.ops) } = committed
    at covers record older ⊢
  generalize (first.stageAll m.db block.ops).undo.entries = entries at covers record older
  cases block.reopened with
  | none => exact ⟨_, _, rfl, covers, record, older⟩
  | some ops =>
    -- The second opening finds the record of the first and adds to its notes.
    let second : CModelActiveBlock :=
      { undo := { first.undo with entries }, captured := entries.map CModelUndoEntry.key }
    have resumed : Journals m.db.data committed.db second := journals_resumeBlock covers
    obtain ⟨covers', record', older'⟩ := (resumed.stageAll ops).commitBlock
    rw [second.undo_stageAll committed.db ops] at covers' record' older'
    refine ⟨commitBlock { db := committed.db, m_active := some (second.stageAll committed.db ops) }, _, ?_,
      covers', record', fun height own old => (older' height own old).trans (older height own old)⟩
    have opened := resumeBlock_of_record record
    exact (congrArg (Option.map fun m => (ops.foldl perform m).commitBlock) opened).trans
      (congrArg (fun m => some (commitBlock m)) (foldl_perform committed.db second ops))

/-- Blocks are applied and rewound: registry and records are back. The induction is on the blocks;
the first one's record survives the later commits. -/
theorem CModelDB.rewind_applyBlocks (blocks : List JournaledBlock) (m : CModelDB) (parent_height : Int)
    (parent_hash : Uint256) (few : (blocks.length : Int) ≤ MODELDB_UNDO_KEEP_BLOCKS) :
    ∃ next final, m.applyBlocks parent_height parent_hash blocks = some next ∧
      next.db.rewind (heightsAbove parent_height blocks.length) = some final ∧ final.data = m.db.data ∧
      (blocks ≠ [] → final.syncedTip =
        if 0 < parent_height ∨ parent_hash ≠ 0 then some (parent_height, parent_hash) else none) ∧
      ∀ height ≤ parent_height, parent_height + blocks.length - MODELDB_UNDO_KEEP_BLOCKS < height →
        final.undo.get? height = m.db.undo.get? height := by
  induction blocks generalizing m parent_height parent_hash with
  | nil => exact ⟨m, m.db, rfl, rfl, rfl, fun nonempty => absurd rfl nonempty, fun _ _ _ => rfl⟩
  | cons block blocks ih =>
    rw [List.length_cons, Nat.cast_add, Nat.cast_one] at few
    obtain ⟨mid, entries, applied, covers, record, older⟩ := m.applyBlock_applied parent_height parent_hash block
    dsimp only at record older
    obtain ⟨next, last, rest, rewound, data, _, records⟩ := ih mid (parent_height + 1) block.hash (by omega)
    have found := (records (parent_height + 1) le_rfl (by omega)).trans record
    refine ⟨next, last.applyUndoAndRewindTip
      { height := parent_height + 1, hash := block.hash, parent_height, parent_hash, entries }, ?_, ?_, ?_, fun _ => rfl, fun height low kept => ?_⟩
    · rw [applyBlocks, applied]
      exact rest
    · rw [List.length_cons, heightsAbove, ModelDisk.rewind_append, rewound, Option.bind_some, ModelDisk.rewind, found]
      rfl
    · dsimp only [ModelDisk.applyUndoAndRewindTip]
      rw [data]
      exact covers.replay
    · rw [List.length_cons, Nat.cast_add, Nat.cast_one] at kept
      dsimp only [ModelDisk.applyUndoAndRewindTip]
      rw [OrdMap.get?_erase_of_ne _ _ (by omega), records height (by omega) (by omega)]
      exact older height (by omega) (by omega)

/-- The journal is an exact inverse. Consecutive blocks, no more than are kept, are taken back by
their records: every key has its former value and the marker stands at the first block's parent.
While a block is open, reads answer with the last staged value. -/
theorem journal_rewinds_blocks (m : CModelDB) (parent_height : Int) (parent_hash : Uint256)
    (blocks : List JournaledBlock) (few : (blocks.length : Int) ≤ MODELDB_UNDO_KEEP_BLOCKS) :
    (∃ next final, m.applyBlocks parent_height parent_hash blocks = some next ∧
      next.db.rewind (heightsAbove parent_height blocks.length) = some final ∧ final.data = m.db.data ∧
      (blocks ≠ [] → final.syncedTip =
        if 0 < parent_height ∨ parent_hash ≠ 0 then some (parent_height, parent_hash) else none)) ∧
    ∀ (height : Int) (hash : Uint256) (ops : List ModelDbOp) (key : DbKey),
      (ops.foldl CModelDB.perform (m.beginBlock height hash parent_height parent_hash)).read key =
          (Overlay.replay (ops.filterMap ModelDbOp.change) m.db.data).get? key ∧
        ∀ resumed, m.resumeBlock height hash parent_height parent_hash = some resumed →
          (ops.foldl CModelDB.perform resumed).read key =
            (Overlay.replay (ops.filterMap ModelDbOp.change) m.db.data).get? key := by
  constructor
  · obtain ⟨next, final, applied, rewound, data, tip, _⟩ := m.rewind_applyBlocks blocks parent_height parent_hash few
    exact ⟨next, final, applied, rewound, data, tip⟩
  · intro height hash ops key
    -- Both ways of opening start with an empty batch and an empty overlay.
    refine ⟨CModelActiveBlock.Mirrors.read (fun _ => rfl) rfl ops key, fun resumed opened => ?_⟩
    unfold CModelDB.resumeBlock at opened
    split at opened
    · exact absurd opened (by simp)
    · split_ifs at opened
      rw [← Option.some.inj opened]
      exact CModelActiveBlock.Mirrors.read (fun _ => rfl) rfl ops key

def journaledBlocks : List JournaledBlock :=
  [{ hash := 1, ops := [.write ⟨[1]⟩ [7], .read ⟨[1]⟩, .write ⟨[1]⟩ [8]],
     reopened := some [.write ⟨[2]⟩ [9], .write ⟨[1]⟩ [10]] }, { hash := 2, ops := [.erase ⟨[1]⟩] }]

/-- The two blocks are taken back. -/
theorem journaledBlocks_rewound :
    ∃ next final, CModelDB.applyBlocks { db := {} } 5 3 journaledBlocks = some next ∧
      next.db.rewind [7, 6] = some final ∧ final.data = ∅ ∧ final.syncedTip = some (5, 3) := by
  obtain ⟨⟨next, final, applied, rewound, data, tip⟩, _⟩ :=
    journal_rewinds_blocks { db := {} } 5 3 journaledBlocks (by decide)
  exact ⟨next, final, applied, rewound, data, tip (by decide)⟩

end TensorCash
