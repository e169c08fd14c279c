import TensorCash.Validation.RegChain

/-! Peers send the tick and the delay proof that a header's `hashPoW` commits to. All threads
interleave in any way, and anything may be pruned or dropped at any time. -/

namespace TensorCash

open Checked Codec

structure VdfExtSidecar where
  header_hash : Uint256
  prev_hash : Uint256
  tick : UInt64
  vdf : Bytes
  merkle_branch_tick : List Uint256 := []
  merkle_branch_vdf : List Uint256 := []
  leaf_scheme_version : UInt8 := 1
  n_leaves : UInt32 := 4

inductive VdfBucketStatus where
  | PENDING
  | VALID
  | INVALID
deriving DecidableEq

structure VdfBucket where
  representative : Uint256
  proof_id : Uint256
  tick : UInt64
  status : VdfBucketStatus := .PENDING

structure VdfHeaderInfo where
  status : VdfBucketStatus := .PENDING
  tick : UInt64 := 0
  vdf : Bytes := []
  cum_tick : Uint256 := 0
  cum_set : Bool := false
deriving DecidableEq

structure VdfVerifyTask where
  prev_hash : Uint256
  vdf : Bytes
  tick : UInt64
  proof_id : Uint256

structure HeaderIndex where
  pprev : Option Uint256
  nHeight : Nat
  hashPoW : Uint256
deriving DecidableEq

def HeaderIndex.prevHash (e : HeaderIndex) : Uint256 := e.pprev.getD 0

structure AnchorBlock where
  tick : UInt64
  vdf : Bytes
  cumulative_tick : UInt64

/-- The hash functions, the verification of delay proofs, and the activation heights. -/
structure SidecarEnv where
  crypto : Crypto
  verifyAgainstPrevHash : Uint256 → Bytes → UInt64 → Bool
  isVdfSpvActive : Nat → Bool
  isVdfVdfVerifyActive : Nat → Bool

abbrev VdfHeaders : Type := OrdMap Uint256 VdfHeaderInfo

/-- The header index, the anchors, the sidecar maps, and the worker's tasks. -/
structure SidecarState where
  index : OrdMap Uint256 HeaderIndex
  disk : OrdMap Uint256 AnchorBlock := ∅
  headers : VdfHeaders := ∅
  buckets : OrdMap Uint256 (OrdMap Uint256 VdfBucket) := ∅
  queue : List VdfVerifyTask := []
  batch : List VdfVerifyTask := []

def VDF_MAX_BUCKETS_PER_PARENT : Nat := 16
def VDF_MAX_PROOF_SIZE : Nat := 1024
def VDF_MAX_SIDECAR_BYTES : Nat := 1024
def VDF_MAX_VERIFY_QUEUE : Nat := 10000

def arithUint256 (tick : UInt64) : Uint256 := Fin.ofNat _ tick.toNat

def tickLeaf (c : Crypto) (tick : UInt64) : Uint256 := powLeafHash c 0x01 (serUInt64 tick)

def vdfLeaf (c : Crypto) (vdf : Bytes) : Uint256 := powLeafHash c 0x02 vdf

def estimateSidecarBytes (sc : VdfExtSidecar) : Nat :=
  32 + 32 + 8 + sc.vdf.length + sc.merkle_branch_tick.length * 32 + sc.merkle_branch_vdf.length * 32 + 4 + 1

def checkBranch (branch : List Uint256) (fold : Uint256 → Uint256 → Uint256) (hashPoW : Uint256)
    (needed : Bool) (bad size missing : String) : Except String Unit :=
  match branch with
  | [] => require (needed = false) missing
  | [sibling, rest] => require (fold sibling rest = hashPoW) bad
  | _ => require (needed = false) size

def checkSidecar (env : SidecarEnv) (hp : HeaderIndex) (sc : VdfExtSidecar) : Except String Unit := do
  let c := env.crypto
  let require_merkle := env.isVdfSpvActive hp.nHeight
  let require_proof := env.isVdfVdfVerifyActive hp.nHeight
  let vdf_branch := !sc.vdf.isEmpty && require_proof
  require (¬((sc.vdf.isEmpty && require_proof) = true ∨ VDF_MAX_PROOF_SIZE < sc.vdf.length))
    "bad-headers-ext-size"
  require (sc.prev_hash = hp.prevHash) "bad-headers-ext-prev"
  require (require_merkle = true → sc.leaf_scheme_version = 1 ∧ sc.n_leaves = 4) "bad-headers-ext-meta"
  require (require_merkle = true → sc.merkle_branch_tick.length = 2) "headers-ext-missing-branch-tick"
  require ((require_merkle && vdf_branch) = true → sc.merkle_branch_vdf.length = 2)
    "headers-ext-missing-branch-vdf"
  -- The tick is the left leaf and the proof the right one; the rest of the tree is one hash.
  checkBranch sc.merkle_branch_tick
    (fun sibling rest => c.hashPair (c.hashPair (tickLeaf c sc.tick) sibling) rest)
    hp.hashPoW require_merkle "bad-headers-ext-branch-tick" "headers-ext-bad-branch-size-tick"
    "headers-ext-missing-branch-tick"
  checkBranch sc.merkle_branch_vdf
    (fun sibling rest => c.hashPair (c.hashPair sibling (vdfLeaf c sc.vdf)) rest)
    hp.hashPoW (require_merkle && vdf_branch) "bad-headers-ext-branch-vdf"
    "headers-ext-bad-branch-size-vdf" "headers-ext-missing-branch-vdf"

namespace SidecarState

def record (s : SidecarState) (sc : VdfExtSidecar) : SidecarState :=
  let info : VdfHeaderInfo := (s.headers.get? sc.header_hash).getD {}
  let filled := { info with tick := sc.tick, vdf := sc.vdf, status := .PENDING }
  { s with headers := s.headers.insert sc.header_hash filled }

def bucketAt (s : SidecarState) (prev_hash proof_id : Uint256) : Option VdfBucket :=
  (s.buckets.get? prev_hash).bind fun by_proof => by_proof.get? proof_id

def setBucket (s : SidecarState) (prev_hash proof_id : Uint256) (bucket : VdfBucket) : SidecarState :=
  let by_proof := (s.buckets.get? prev_hash).getD ∅
  { s with buckets := s.buckets.insert prev_hash (by_proof.insert proof_id bucket) }

def enqueueVdfVerifyTask (s : SidecarState) (task : VdfVerifyTask) : SidecarState :=
  if VDF_MAX_VERIFY_QUEUE ≤ s.queue.length then s else { s with queue := s.queue ++ [task] }

def track (c : Crypto) (s : SidecarState) (sc : VdfExtSidecar) : SidecarState :=
  if sc.vdf.isEmpty then s
  else
    let proof_id := vdfLeaf c sc.vdf
    let by_proof := (s.buckets.get? sc.prev_hash).getD ∅
    -- Another header with the same proof on this parent is a sibling, and ignored.
    if by_proof.contains proof_id then s
    else if VDF_MAX_BUCKETS_PER_PARENT ≤ by_proof.entries.length then s
    else
      let opened := s.setBucket sc.prev_hash proof_id ⟨sc.header_hash, proof_id, sc.tick, .PENDING⟩
      opened.enqueueVdfVerifyTask ⟨sc.prev_hash, sc.vdf, sc.tick, proof_id⟩

def headersExt (env : SidecarEnv) (s : SidecarState) (sc : VdfExtSidecar) : SidecarState :=
  if VDF_MAX_SIDECAR_BYTES < estimateSidecarBytes sc then s
  else
    match s.index.get? sc.header_hash with
    -- Without the header nothing is checked, and the bucket is opened all the same.
    | none => s.track env.crypto sc
    | some hp =>
      match checkSidecar env hp sc with
      | .error _ => s
      | .ok _ => (s.record sc).track env.crypto sc

end SidecarState

def tryComputeCumForHeader (headers : VdfHeaders) (header_hash prev_hash : Uint256) : VdfHeaders :=
  match headers.get? header_hash with
  | none => headers
  | some info =>
    if info.cum_set = true ∨ info.status ≠ .VALID then headers
    else if prev_hash = 0 then
      headers.insert header_hash { info with cum_tick := arithUint256 info.tick, cum_set := true }
    else
      match headers.get? prev_hash with
      | none => headers
      | some parent =>
        if parent.status ≠ .VALID ∨ parent.cum_set = false then headers
        else headers.insert header_hash
          { info with cum_tick := parent.cum_tick + arithUint256 info.tick, cum_set := true }

namespace SidecarState

/-- The entry that a validated block leaves; a proof that is there stays. -/
def tryAnchorFromDisk (s : SidecarState) (hash : Uint256) : Option (VdfHeaders × Uint256) :=
  (s.disk.get? hash).map fun block =>
    let old := (s.headers.get? hash).getD {}
    (s.headers.insert hash ⟨.VALID, block.tick, if old.vdf.isEmpty then block.vdf else old.vdf,
      arithUint256 block.cumulative_tick, true⟩, arithUint256 block.cumulative_tick)

/-- The walk of `ComputeCumFromGenesis` towards genesis, with what it leaves in the entries. -/
def cumWalk (s : SidecarState) : Nat → Option Uint256 → Uint256 → VdfHeaders × Option Uint256
  | _, none, accum => (s.headers, some accum)
  | 0, some _, _ => (s.headers, none)
  | fuel + 1, some hash, accum =>
    match (s.headers.get? hash).filter fun info => info.status = .VALID with
    | none =>
      match s.tryAnchorFromDisk hash with
      | none => (s.headers, none)
      | some (headers, anchored) => (headers, some (accum + anchored))
    | some info =>
      if info.cum_set then (s.headers, some (accum + info.cum_tick))
      else s.cumWalk fuel ((s.index.get? hash).bind HeaderIndex.pprev) (accum + arithUint256 info.tick)

/-- Each step goes down one height, so this many lead past genesis. -/
def computeCumFromGenesis (s : SidecarState) (tip : Uint256) : VdfHeaders × Option Uint256 :=
  s.cumWalk (((s.index.get? tip).map HeaderIndex.nHeight).getD 0 + 1) (some tip) 0

def finish (s : SidecarState) (task : VdfVerifyTask) : SidecarState :=
  match s.bucketAt task.prev_hash task.proof_id with
  | none => s
  | some bucket =>
    let s := s.setBucket task.prev_hash task.proof_id { bucket with status := .VALID }
    -- The entry is marked whatever tick and proof it holds by now.
    let headers :=
      match s.headers.get? bucket.representative with
      | none => s.headers
      | some info => s.headers.insert bucket.representative { info with status := .VALID }
    { s with headers := tryComputeCumForHeader headers bucket.representative task.prev_hash }

def drainAnchor (s : SidecarState) (hash : Uint256) (block : AnchorBlock) : SidecarState :=
  let info : VdfHeaderInfo := (s.headers.get? hash).getD {}
  let anchor := { info with
    status := .VALID, tick := block.tick, cum_tick := arithUint256 block.cumulative_tick, cum_set := true }
  { s with headers := s.headers.insert hash anchor }

end SidecarState

/-- What can happen. A task is taken first and applied later; `skipped` results come from the
cache. -/
inductive SidecarEvent where
  | header (hash pprev hashPoW : Uint256)
  | message (sc : VdfExtSidecar)
  | take
  | complete (skipped : Bool)
  | pruneHeader (hash : Uint256)
  | pruneBucket (prev_hash proof_id : Uint256)
  | stored (hash : Uint256) (block : AnchorBlock)
  | removed (hash : Uint256)
  | drained (hash : Uint256) (block : AnchorBlock)
  | compute (tip : Uint256)

namespace SidecarState

def acceptHeader (s : SidecarState) (hash pprev hashPoW : Uint256) : SidecarState :=
  match s.index.get? pprev with
  | none => s
  | some parent =>
    if s.index.contains hash then s
    else { s with index := s.index.insert hash ⟨some pprev, parent.nHeight + 1, hashPoW⟩ }

def complete (env : SidecarEnv) (s : SidecarState) (skipped : Bool) : SidecarState :=
  match s.batch with
  | [] => s
  | task :: rest =>
    let s := { s with batch := rest }
    if skipped = false ∧ env.verifyAgainstPrevHash task.prev_hash task.vdf task.tick = true then s.finish task
    else s

def step (env : SidecarEnv) (s : SidecarState) : SidecarEvent → SidecarState
  | .header hash pprev hashPoW => s.acceptHeader hash pprev hashPoW
  | .message sc => s.headersExt env sc
  | .take =>
    match s.queue with
    | [] => s
    | task :: rest => { s with queue := rest, batch := s.batch ++ [task] }
  | .complete skipped => s.complete env skipped
  | .pruneHeader hash => { s with headers := s.headers.erase hash }
  | .pruneBucket prev_hash proof_id =>
    let by_proof := (s.buckets.get? prev_hash).getD ∅
    { s with buckets := s.buckets.insert prev_hash (by_proof.erase proof_id) }
  | .stored hash block => { s with disk := s.disk.insert hash block }
  | .removed hash => { s with disk := s.disk.erase hash }
  | .drained hash block => s.drainAnchor hash block
  | .compute tip => { s with headers := (s.computeCumFromGenesis tip).1 }

def initial (genesis hashPoW : Uint256) : SidecarState where
  index := (∅ : OrdMap Uint256 HeaderIndex).insert genesis ⟨none, 0, hashPoW⟩

def AllAlong (env : SidecarEnv) (allowed : SidecarState → SidecarEvent → Prop) :
    SidecarState → List SidecarEvent → Prop
  | _, [] => True
  | s, event :: events => allowed s event ∧ AllAlong env allowed (s.step env event) events

def run (env : SidecarEnv) (s : SidecarState) (events : List SidecarEvent) : SidecarState :=
  events.foldl (step env) s

end SidecarState

def leafInput (tag : UInt8) (data : Bytes) : Bytes :=
  [0xff, 80, 79, 87, 0, tag] ++ leBytes 4 data.length ++ data

def pairInput (a b : Uint256) : Bytes := a.bytes ++ b.bytes

def NoCollision (c : Crypto) (inputs : List Bytes) : Prop :=
  ∀ a ∈ inputs, ∀ b ∈ inputs, c.hash a = c.hash b → a = b

instance (c : Crypto) (inputs : List Bytes) : Decidable (NoCollision c inputs) := by
  unfold NoCollision
  infer_instance

def openingInputs (c : Crypto) (tick : UInt64) (vdf : Bytes) (rest : Uint256) : List Bytes :=
  [leafInput 0x01 (serUInt64 tick), leafInput 0x02 vdf, pairInput (tickLeaf c tick) (vdfLeaf c vdf),
    pairInput (c.hashPair (tickLeaf c tick) (vdfLeaf c vdf)) rest]

def Committed (c : Crypto) (inputs : List Bytes) (hashPoW : Uint256) (tick : UInt64) (vdf : Bytes) : Prop :=
  ∃ rest, c.hashPair (c.hashPair (tickLeaf c tick) (vdfLeaf c vdf)) rest = hashPoW ∧
    openingInputs c tick vdf rest ⊆ inputs

def VdfExtSidecar.inputs (c : Crypto) (sc : VdfExtSidecar) : List Bytes :=
  [leafInput 0x01 (serUInt64 sc.tick), leafInput 0x02 sc.vdf] ++ (match sc.merkle_branch_tick with
      | [sibling, rest] => [pairInput (tickLeaf c sc.tick) sibling,
          pairInput (c.hashPair (tickLeaf c sc.tick) sibling) rest]
      | _ => []) ++ match sc.merkle_branch_vdf with
    | [sibling, rest] => [pairInput sibling (vdfLeaf c sc.vdf), pairInput (c.hashPair sibling (vdfLeaf c sc.vdf)) rest]
    | _ => []

section Commitments

variable {c : Crypto} {inputs : List Bytes} {hashPoW : Uint256}

theorem leafInput_injective (tag : UInt8) : Function.Injective (leafInput tag) := by
  intro a b same
  exact (List.append_inj same (by simp)).2

theorem serUInt64_injective : Function.Injective serUInt64 := fun a b same =>
  UInt64.toNat_inj.mp (leBytes_inj (by simpa using a.toNat_lt) (by simpa using b.toNat_lt) same)

theorem NoCollision.pair (apart : NoCollision c inputs) {a b a' b' : Uint256}
    (known : pairInput a b ∈ inputs) (known' : pairInput a' b' ∈ inputs)
    (same : c.hashPair a b = c.hashPair a' b') : a = a' ∧ b = b' := by
  have equal := apart _ known _ known' same
  obtain ⟨first, second⟩ := List.append_inj equal (by simp)
  exact ⟨Uint256.bytes_injective first, Uint256.bytes_injective second⟩

theorem NoCollision.leaf (apart : NoCollision c inputs) {tag : UInt8} {data data' : Bytes}
    (known : leafInput tag data ∈ inputs) (known' : leafInput tag data' ∈ inputs)
    (same : powLeafHash c tag data = powLeafHash c tag data') : data = data' :=
  leafInput_injective tag (apart _ known _ known' same)

theorem Committed.unique (apart : NoCollision c inputs) {tick tick' : UInt64} {vdf vdf' : Bytes}
    (first : Committed c inputs hashPoW tick vdf) (second : Committed c inputs hashPoW tick' vdf') :
    tick = tick' ∧ vdf = vdf' := by
  obtain ⟨rest, root, known⟩ := first
  obtain ⟨rest', root', known'⟩ := second
  have nodes := apart.pair (known (by simp [openingInputs])) (known' (by simp [openingInputs]))
    (root.trans root'.symm)
  have leaves := apart.pair (known (by simp [openingInputs])) (known' (by simp [openingInputs])) nodes.1
  exact ⟨serUInt64_injective (apart.leaf (known (by simp [openingInputs])) (known' (by simp [openingInputs]))
      leaves.1), apart.leaf (known (by simp [openingInputs])) (known' (by simp [openingInputs])) leaves.2⟩

end Commitments

def SidecarEnv.Required (env : SidecarEnv) (nHeight : Nat) : Prop :=
  env.isVdfSpvActive nHeight = true ∧ env.isVdfVdfVerifyActive nHeight = true

theorem checkBranch_two {branch : List Uint256} {fold : Uint256 → Uint256 → Uint256} {hashPoW : Uint256}
    {needed : Bool} {bad size missing : String} (two : branch.length = 2)
    (checked : checkBranch branch fold hashPoW needed bad size missing = .ok ⟨⟩) :
    ∃ sibling rest, branch = [sibling, rest] ∧ fold sibling rest = hashPoW := by
  obtain ⟨sibling, rest, rfl⟩ := List.length_eq_two.mp two
  exact ⟨sibling, rest, rfl, require_eq_ok.mp checked⟩

theorem checkSidecar_committed {env : SidecarEnv} {hp : HeaderIndex} {sc : VdfExtSidecar}
    {inputs : List Bytes} (apart : NoCollision env.crypto inputs) (known : sc.inputs env.crypto ⊆ inputs)
    (checked : checkSidecar env hp sc = .ok ⟨⟩) : sc.prev_hash = hp.prevHash ∧
      (env.Required hp.nHeight → Committed env.crypto inputs hp.hashPoW sc.tick sc.vdf) := by
  unfold checkSidecar at checked
  dsimp only at checked
  obtain ⟨_, size, checked⟩ := bind_eq_ok.mp checked
  obtain ⟨_, prev, checked⟩ := bind_eq_ok.mp checked
  obtain ⟨_, _, checked⟩ := bind_eq_ok.mp checked
  obtain ⟨_, tick_two, checked⟩ := bind_eq_ok.mp checked
  obtain ⟨_, vdf_two, checked⟩ := bind_eq_ok.mp checked
  obtain ⟨_, tick_branch, vdf_branch⟩ := bind_eq_ok.mp checked
  refine ⟨require_eq_ok.mp prev, fun ⟨merkle, proof⟩ => ?_⟩
  have nonempty : sc.vdf.isEmpty = false := by
    have := require_eq_ok.mp size
    simp only [proof, Bool.and_true, not_or] at this
    simpa using this.1
  obtain ⟨sibling, rest, tick_eq, tick_root⟩ := checkBranch_two (require_eq_ok.mp tick_two merkle) tick_branch
  obtain ⟨sibling', rest', vdf_eq, vdf_root⟩ := checkBranch_two
    (require_eq_ok.mp vdf_two (by simp [merkle, proof, nonempty])) vdf_branch
  have all : ∀ bytes, bytes ∈ sc.inputs env.crypto → bytes ∈ inputs := fun _ mem => known mem
  simp only [VdfExtSidecar.inputs, tick_eq, vdf_eq, List.cons_append, List.nil_append, List.mem_cons,
    List.not_mem_nil, or_false, forall_eq_or_imp, forall_eq] at all
  obtain ⟨leaf, leaf', pair, node, pair', node'⟩ := all
  -- Both roots are the header's, so the nodes below them agree, and then the leaves.
  obtain ⟨below, rfl⟩ := apart.pair node node' (tick_root.trans vdf_root.symm)
  obtain ⟨rfl, rfl⟩ := apart.pair pair pair' below
  refine ⟨rest, tick_root, ?_⟩
  intro bytes mem
  simp only [openingInputs, List.mem_cons, List.not_mem_nil, or_false] at mem
  rcases mem with rfl | rfl | rfl | rfl <;> assumption

inductive CommittedSum (c : Crypto) (inputs : List Bytes) (index : OrdMap Uint256 HeaderIndex) :
    Uint256 → Uint256 → Prop where
  | genesis {hash : Uint256} {e : HeaderIndex} {tick : UInt64} {vdf : Bytes} :
      index.get? hash = some e → e.pprev = none → Committed c inputs e.hashPoW tick vdf →
      CommittedSum c inputs index hash (arithUint256 tick)
  | child {hash parent total : Uint256} {e : HeaderIndex} {tick : UInt64} {vdf : Bytes} :
      index.get? hash = some e → e.pprev = some parent → CommittedSum c inputs index parent total →
      Committed c inputs e.hashPoW tick vdf → CommittedSum c inputs index hash (total + arithUint256 tick)

def SidecarEnv.RequiredUpTo (env : SidecarEnv) (nHeight : Nat) : Prop := ∀ n ≤ nHeight, env.Required n

def InfoOk (env : SidecarEnv) (inputs : List Bytes) (index : OrdMap Uint256 HeaderIndex) (hash : Uint256)
    (info : VdfHeaderInfo) : Prop :=
  ∃ e, index.get? hash = some e ∧ (env.Required e.nHeight → Committed env.crypto inputs e.hashPoW info.tick info.vdf ∧
      (info.status = .VALID → env.verifyAgainstPrevHash e.prevHash info.vdf info.tick = true)) ∧
    (info.cum_set = true → env.RequiredUpTo e.nHeight → CommittedSum env.crypto inputs index hash info.cum_tick)

def AnchorOk (env : SidecarEnv) (inputs : List Bytes) (index : OrdMap Uint256 HeaderIndex) (hash : Uint256)
    (block : AnchorBlock) : Prop :=
  InfoOk env inputs index hash ⟨.VALID, block.tick, block.vdf, arithUint256 block.cumulative_tick, true⟩

def TaskOk (env : SidecarEnv) (inputs : List Bytes) (index : OrdMap Uint256 HeaderIndex)
    (task : VdfVerifyTask) (representative : Uint256) : Prop :=
  ∃ e, index.get? representative = some e ∧ e.prevHash = task.prev_hash ∧
    (env.Required e.nHeight → Committed env.crypto inputs e.hashPoW task.tick task.vdf)

namespace SidecarState

structure Sound (env : SidecarEnv) (inputs : List Bytes) (s : SidecarState) : Prop where
  null : s.index.get? 0 = none
  parents : ∀ hash e parent, s.index.get? hash = some e → e.pprev = some parent →
    ∃ e', s.index.get? parent = some e' ∧ e.nHeight = e'.nHeight + 1
  entries : ∀ hash info, s.headers.get? hash = some info → InfoOk env inputs s.index hash info
  disk : ∀ hash block, s.disk.get? hash = some block → AnchorOk env inputs s.index hash block
  tasks : ∀ task ∈ s.queue ++ s.batch, ∃ bucket, s.bucketAt task.prev_hash task.proof_id = some bucket ∧
    TaskOk env inputs s.index task bucket.representative

/-- Assumed of the events: sidecar hashes do not collide, no header hashes to zero, and validated
blocks are in order. -/
def Assumed (env : SidecarEnv) (inputs : List Bytes) (s : SidecarState) : SidecarEvent → Prop
  | .header hash _ _ => hash ≠ 0
  | .message sc => sc.inputs env.crypto ⊆ inputs
  | .stored hash block => AnchorOk env inputs s.index hash block
  | .drained hash block => AnchorOk env inputs s.index hash block
  | _ => True

/-- Sidecars come after headers, buckets outlive tasks, and connected blocks find entries. -/
def Guarded (s : SidecarState) : SidecarEvent → Prop
  | .message sc => s.index.contains sc.header_hash = true
  | .pruneBucket prev_hash proof_id =>
    ∀ task ∈ s.queue ++ s.batch, ¬(task.prev_hash = prev_hash ∧ task.proof_id = proof_id)
  | .drained hash _ => s.headers.contains hash = true
  | _ => True

def Grows (index index' : OrdMap Uint256 HeaderIndex) : Prop :=
  ∀ hash e, index.get? hash = some e → index'.get? hash = some e

end SidecarState

section Grows

variable {env : SidecarEnv} {inputs : List Bytes} {index index' : OrdMap Uint256 HeaderIndex}
  {hash : Uint256}

theorem CommittedSum.mono {c : Crypto} {total : Uint256} (grows : SidecarState.Grows index index')
    (sum : CommittedSum c inputs index hash total) : CommittedSum c inputs index' hash total := by
  induction sum with
  | genesis known root committed => exact .genesis (grows _ _ known) root committed
  | child known above _ committed ih => exact .child (grows _ _ known) above ih committed

theorem InfoOk.mono {info : VdfHeaderInfo} (grows : SidecarState.Grows index index')
    (ok : InfoOk env inputs index hash info) : InfoOk env inputs index' hash info := by
  obtain ⟨e, known, values, count⟩ := ok
  exact ⟨e, grows _ _ known, values, fun set required => (count set required).mono grows⟩

theorem TaskOk.mono {task : VdfVerifyTask} (grows : SidecarState.Grows index index')
    (ok : TaskOk env inputs index task hash) : TaskOk env inputs index' task hash := by
  obtain ⟨e, known, rest⟩ := ok
  exact ⟨e, grows _ _ known, rest⟩

end Grows

namespace SidecarState

section Steps

variable {env : SidecarEnv} {inputs : List Bytes} {s : SidecarState}

theorem Sound.setInfo (sound : s.Sound env inputs) {hash : Uint256} {info : VdfHeaderInfo}
    (ok : InfoOk env inputs s.index hash info) :
    Sound env inputs { s with headers := s.headers.insert hash info } := by
  refine ⟨sound.null, sound.parents, fun other found known => ?_, sound.disk, sound.tasks⟩
  by_cases same : other = hash
  · subst same
    rw [OrdMap.get?_insert_self] at known
    exact Option.some.inj known ▸ ok
  · rw [OrdMap.get?_insert_of_ne _ _ _ same] at known
    exact sound.entries other found known

theorem Sound.header (sound : s.Sound env inputs) {hash : Uint256} (pprev hashPoW : Uint256)
    (nonzero : hash ≠ 0) : (s.acceptHeader hash pprev hashPoW).Sound env inputs := by
  unfold acceptHeader
  split
  · exact sound
  · next parent found =>
    split_ifs with known
    · exact sound
    · have absent : s.index.get? hash = none := by simpa [OrdMap.contains] using known
      have grows : Grows s.index (s.index.insert hash ⟨some pprev, parent.nHeight + 1, hashPoW⟩) := by
        intro other e there
        refine (OrdMap.get?_insert_of_ne _ _ _ fun same => ?_).trans there
        rw [same, absent] at there
        exact absurd there (by simp)
      refine ⟨?_, fun other e above there up => ?_, fun other info there => (sound.entries other info there).mono grows,
        fun other block there => (sound.disk other block there).mono grows, fun task waits => ?_⟩
      · exact (OrdMap.get?_insert_of_ne _ _ _ nonzero.symm).trans sound.null
      · by_cases same : other = hash
        · subst same
          rw [OrdMap.get?_insert_self] at there
          cases there
          cases up
          exact ⟨parent, grows _ _ found, rfl⟩
        · rw [OrdMap.get?_insert_of_ne _ _ _ same] at there
          obtain ⟨e', below, height⟩ := sound.parents other e above there up
          exact ⟨e', grows _ _ below, height⟩
      · obtain ⟨bucket, there, ok⟩ := sound.tasks task waits
        exact ⟨bucket, there, ok.mono grows⟩

theorem bucketAt_setBucket (s : SidecarState) (prev_hash proof_id : Uint256) (bucket : VdfBucket)
    (prev_hash' proof_id' : Uint256) : (s.setBucket prev_hash proof_id bucket).bucketAt prev_hash' proof_id' =
      if prev_hash' = prev_hash ∧ proof_id' = proof_id then some bucket
      else s.bucketAt prev_hash' proof_id' := by
  unfold setBucket bucketAt
  dsimp only
  rw [OrdMap.get?_insert]
  by_cases same : prev_hash' = prev_hash
  · subst same
    rw [if_pos rfl, Option.bind_some, OrdMap.get?_insert]
    by_cases own : proof_id' = proof_id
    · rw [if_pos own, if_pos ⟨rfl, own⟩]
    · rw [if_neg own, if_neg fun both => own both.2]
      cases s.buckets.get? prev_hash' <;> simp
  · rw [if_neg same, if_neg fun both => same both.1]

theorem Sound.track (sound : s.Sound env inputs) {sc : VdfExtSidecar}
    (ok : TaskOk env inputs s.index ⟨sc.prev_hash, sc.vdf, sc.tick, vdfLeaf env.crypto sc.vdf⟩ sc.header_hash) :
    (s.track env.crypto sc).Sound env inputs := by
  unfold SidecarState.track
  split_ifs with empty
  · exact sound
  · dsimp only
    split_ifs with sibling full
    · exact sound
    · exact sound
    · have fresh : s.bucketAt sc.prev_hash (vdfLeaf env.crypto sc.vdf) = none := by
        unfold bucketAt
        cases there : s.buckets.get? sc.prev_hash with
        | none => rfl
        | some by_proof => simpa [OrdMap.contains, there] using sibling
      -- Every task has its bucket, so the one that is opened is none of theirs.
      have old : ∀ task ∈ s.queue ++ s.batch, ∃ bucket, (s.setBucket sc.prev_hash (vdfLeaf env.crypto sc.vdf)
            ⟨sc.header_hash, vdfLeaf env.crypto sc.vdf, sc.tick, .PENDING⟩).bucketAt
              task.prev_hash task.proof_id = some bucket ∧ TaskOk env inputs s.index task bucket.representative := by
        intro task waits
        obtain ⟨bucket, there, taskOk⟩ := sound.tasks task waits
        refine ⟨bucket, ?_, taskOk⟩
        rw [bucketAt_setBucket, if_neg]
        · exact there
        · rintro ⟨prev, proof⟩
          rw [prev, proof, fresh] at there
          exact absurd there (by simp)
      unfold enqueueVdfVerifyTask
      split_ifs
      · exact ⟨sound.null, sound.parents, sound.entries, sound.disk, old⟩
      · refine ⟨sound.null, sound.parents, sound.entries, sound.disk, fun task waits => ?_⟩
        have either : task ∈ s.queue ++ s.batch ∨
            task = ⟨sc.prev_hash, sc.vdf, sc.tick, vdfLeaf env.crypto sc.vdf⟩ := by
          simp only [setBucket, List.mem_append, List.mem_singleton] at waits ⊢
          tauto
        rcases either with waits | rfl
        · exact old task waits
        · refine ⟨⟨sc.header_hash, vdfLeaf env.crypto sc.vdf, sc.tick, .PENDING⟩, ?_, ok⟩
          exact (bucketAt_setBucket _ _ _ _ _ _).trans (if_pos ⟨rfl, rfl⟩)

theorem Sound.message (sound : s.Sound env inputs) (apart : NoCollision env.crypto inputs)
    {sc : VdfExtSidecar} (known : sc.inputs env.crypto ⊆ inputs)
    (indexed : s.index.contains sc.header_hash = true) : (s.headersExt env sc).Sound env inputs := by
  obtain ⟨hp, found⟩ := Option.isSome_iff_exists.mp indexed
  unfold headersExt
  rw [found]
  split_ifs
  · exact sound
  · dsimp only
    split
    · exact sound
    · next checked =>
      obtain ⟨prev, committed⟩ := checkSidecar_committed apart known checked
      have recorded : (s.record sc).Sound env inputs := by
        refine sound.setInfo ⟨hp, found, fun required => ⟨committed required, fun valid => by cases valid⟩, ?_⟩
        -- The count is the old entry's, if there was one.
        intro set required
        cases old : s.headers.get? sc.header_hash with
        | none => simp [old] at set
        | some info =>
          simp only [old, Option.getD_some] at set ⊢
          obtain ⟨e, there, _, count⟩ := sound.entries _ info old
          obtain rfl := Option.mem_unique there found
          exact count set required
      exact recorded.track ⟨hp, found, prev.symm, committed⟩

theorem Sound.taken (sound : s.Sound env inputs) : (s.step env .take).Sound env inputs := by
  unfold step
  dsimp only
  split
  · exact sound
  · next task rest waits =>
    refine ⟨sound.null, sound.parents, sound.entries, sound.disk, fun other mem => ?_⟩
    refine sound.tasks other ?_
    simp only [waits, List.mem_append, List.mem_cons, List.not_mem_nil, or_false] at mem ⊢
    tauto

theorem Sound.tryCompute (sound : s.Sound env inputs) {hash : Uint256} {e : HeaderIndex}
    (known : s.index.get? hash = some e) :
    Sound env inputs { s with headers := tryComputeCumForHeader s.headers hash e.prevHash } := by
  unfold tryComputeCumForHeader
  split
  · exact sound
  · next info found =>
    obtain ⟨e', there, values, _⟩ := sound.entries hash info found
    obtain rfl := Option.mem_unique there known
    split_ifs with skip null
    · exact sound
    · -- No header has the null hash, so this one has no parent.
      refine sound.setInfo ⟨e', known, values, fun _ required => ?_⟩
      have root : e'.pprev = none := by
        cases up : e'.pprev with
        | none => rfl
        | some parent =>
          obtain ⟨below, there, _⟩ := sound.parents hash e' parent known up
          rw [HeaderIndex.prevHash, up, Option.getD_some] at null
          rw [null, sound.null] at there
          exact absurd there (by simp)
      exact .genesis known root (values (required _ le_rfl)).1
    · split
      · exact sound
      · next parent above =>
        split_ifs with unset
        · exact sound
        · refine sound.setInfo ⟨e', known, values, fun _ required => ?_⟩
          obtain ⟨p, up⟩ : ∃ p, e'.pprev = some p := by
            cases up : e'.pprev with
            | none => exact absurd (by rw [HeaderIndex.prevHash, up]; rfl) null
            | some p => exact ⟨p, rfl⟩
          have prev : e'.prevHash = p := by rw [HeaderIndex.prevHash, up]; rfl
          rw [prev] at above
          obtain ⟨below, there', _, count⟩ := sound.entries p parent above
          obtain ⟨below', there'', height⟩ := sound.parents hash e' p known up
          obtain rfl := Option.mem_unique there' there''
          rw [not_or, Bool.not_eq_false] at unset
          exact .child known up (count unset.2 fun n le => required n (by omega))
            (values (required _ le_rfl)).1

/-- A verified task: the header's entry has its values, since the header commits to no others. -/
theorem Sound.finish (sound : s.Sound env inputs) (apart : NoCollision env.crypto inputs)
    {task : VdfVerifyTask} {bucket : VdfBucket} (there : s.bucketAt task.prev_hash task.proof_id = some bucket)
    (ok : TaskOk env inputs s.index task bucket.representative)
    (verified : env.verifyAgainstPrevHash task.prev_hash task.vdf task.tick = true) :
    (s.finish task).Sound env inputs := by
  obtain ⟨e, known, prev, committed⟩ := ok
  have marked : Sound env inputs
      (s.setBucket task.prev_hash task.proof_id { bucket with status := .VALID }) := by
    refine ⟨sound.null, sound.parents, sound.entries, sound.disk, fun other waits => ?_⟩
    obtain ⟨old, found, taskOk⟩ := sound.tasks other waits
    rw [bucketAt_setBucket]
    split_ifs with same
    · rw [same.1, same.2, there] at found
      cases found
      exact ⟨_, rfl, taskOk⟩
    · exact ⟨old, found, taskOk⟩
  unfold SidecarState.finish
  rw [there]
  dsimp only
  split
  · have counted := marked.tryCompute known
    rw [prev] at counted
    exact counted
  · next info found =>
    obtain ⟨e', there', values, count⟩ := marked.entries _ info found
    obtain rfl := Option.mem_unique there' known
    have valid : InfoOk env inputs s.index bucket.representative { info with status := .VALID } := by
      refine ⟨e', known, fun required => ⟨(values required).1, fun _ => ?_⟩, count⟩
      obtain ⟨tick, vdf⟩ := (values required).1.unique apart (committed required)
      rw [tick, vdf, prev]
      exact verified
    have counted := (marked.setInfo valid).tryCompute known
    rw [prev] at counted
    exact counted

theorem Sound.completed (sound : s.Sound env inputs) (apart : NoCollision env.crypto inputs)
    (skipped : Bool) : (s.complete env skipped).Sound env inputs := by
  unfold complete
  split
  · exact sound
  · next task rest taken =>
    have fewer : Sound env inputs { s with batch := rest } := by
      refine ⟨sound.null, sound.parents, sound.entries, sound.disk, fun other waits => ?_⟩
      refine sound.tasks other ?_
      rw [taken]
      simp only [List.mem_append, List.mem_cons] at waits ⊢
      tauto
    dsimp only
    split_ifs with done
    · obtain ⟨bucket, there, ok⟩ := sound.tasks task (by simp [taken])
      exact fewer.finish apart there ok done.2
    · exact fewer

theorem AnchorOk.info (apart : NoCollision env.crypto inputs) {hash : Uint256} {block : AnchorBlock}
    {info : VdfHeaderInfo} (anchor : AnchorOk env inputs s.index hash block)
    (old : InfoOk env inputs s.index hash info) : InfoOk env inputs s.index hash
      ⟨.VALID, block.tick, info.vdf, arithUint256 block.cumulative_tick, true⟩ := by
  obtain ⟨e, known, values, count⟩ := anchor
  obtain ⟨e', there, values', _⟩ := old
  obtain rfl := Option.mem_unique there known
  refine ⟨e', known, fun required => ?_, count⟩
  obtain ⟨_, vdf⟩ := (values' required).1.unique apart (values required).1
  dsimp only
  rw [vdf]
  exact values required

theorem Sound.drained (sound : s.Sound env inputs) (apart : NoCollision env.crypto inputs) {hash : Uint256}
    {block : AnchorBlock} (anchor : AnchorOk env inputs s.index hash block)
    (there : s.headers.contains hash = true) : (s.drainAnchor hash block).Sound env inputs := by
  obtain ⟨info, found⟩ := Option.isSome_iff_exists.mp there
  unfold drainAnchor
  rw [show s.headers.get? hash = some info from found]
  exact sound.setInfo (AnchorOk.info apart anchor (sound.entries hash info found))

theorem Sound.anchored (sound : s.Sound env inputs) (apart : NoCollision env.crypto inputs)
    {hash anchored : Uint256} {headers : VdfHeaders}
    (done : s.tryAnchorFromDisk hash = some (headers, anchored)) :
    Sound env inputs { s with headers } ∧
    ∃ e, s.index.get? hash = some e ∧
      (env.RequiredUpTo e.nHeight → CommittedSum env.crypto inputs s.index hash anchored) := by
  unfold tryAnchorFromDisk at done
  obtain ⟨block, stored, made⟩ := Option.map_eq_some_iff.mp done
  obtain ⟨rfl, rfl⟩ := Prod.mk.inj made
  have anchor := sound.disk hash block stored
  obtain ⟨e, known, _, count⟩ := id anchor
  refine ⟨sound.setInfo ?_, e, known, count rfl⟩
  cases old : s.headers.get? hash with
  | none => exact anchor
  | some info =>
    simp only [Option.getD_some]
    split_ifs
    · exact anchor
    · exact AnchorOk.info apart anchor (sound.entries hash info old)

theorem Sound.cumWalk (sound : s.Sound env inputs) (apart : NoCollision env.crypto inputs) (fuel : Nat) :
    ∀ {hash accum total : Uint256} {e : HeaderIndex}, s.index.get? hash = some e →
      env.RequiredUpTo e.nHeight → (s.cumWalk fuel (some hash) accum).2 = some total →
        ∃ sum, CommittedSum env.crypto inputs s.index hash sum ∧ total = accum + sum := by
  induction fuel with
  | zero => exact fun _ _ returned => by simp [SidecarState.cumWalk] at returned
  | succ fuel ih =>
    intro hash accum total e known required returned
    unfold SidecarState.cumWalk at returned
    split at returned
    · split at returned
      · exact absurd returned (by simp)
      · next headers anchored done =>
        obtain ⟨_, e', there, sum⟩ := sound.anchored apart done
        obtain rfl := Option.mem_unique there known
        exact ⟨anchored, sum required, (Option.some.inj returned).symm⟩
    · next info valid =>
      obtain ⟨found, _⟩ := Option.filter_eq_some_iff.mp valid
      obtain ⟨e', there, values, count⟩ := sound.entries hash info found
      obtain rfl := Option.mem_unique there known
      split_ifs at returned with set
      · exact ⟨info.cum_tick, count set required, (Option.some.inj returned).symm⟩
      · have committed := (values (required _ le_rfl)).1
        rw [known, Option.bind_some] at returned
        cases up : e'.pprev with
        | none =>
          rw [up] at returned
          simp only [SidecarState.cumWalk] at returned
          exact ⟨_, .genesis known up committed, (Option.some.inj returned).symm⟩
        | some parent =>
          obtain ⟨below, there', height⟩ := sound.parents hash e' parent known up
          rw [up] at returned
          obtain ⟨sum, rest, rfl⟩ := ih there' (fun n le => required n (by omega)) returned
          exact ⟨_, .child known up rest committed, by grind⟩

theorem Sound.walked (sound : s.Sound env inputs) (apart : NoCollision env.crypto inputs) (fuel : Nat) :
    ∀ (at_ : Option Uint256) (accum : Uint256),
      Sound env inputs { s with headers := (s.cumWalk fuel at_ accum).1 } := by
  induction fuel with
  | zero => exact fun at_ _ => by cases at_ <;> exact sound
  | succ fuel ih =>
    intro at_ accum
    cases at_ with
    | none => exact sound
    | some hash =>
      unfold SidecarState.cumWalk
      split
      · split
        · exact sound
        · next done => exact (sound.anchored apart done).1
      · split_ifs
        · exact sound
        · exact ih _ _

theorem Sound.pruneBucket (sound : s.Sound env inputs) {prev_hash proof_id : Uint256}
    (idle : s.Guarded (.pruneBucket prev_hash proof_id)) :
    (s.step env (.pruneBucket prev_hash proof_id)).Sound env inputs := by
  refine ⟨sound.null, sound.parents, sound.entries, sound.disk, fun task waits => ?_⟩
  obtain ⟨bucket, there, ok⟩ := sound.tasks task waits
  refine ⟨bucket, ?_, ok⟩
  unfold step bucketAt at *
  dsimp only
  rw [OrdMap.get?_insert]
  split_ifs with same
  · have other : task.proof_id ≠ proof_id := fun own => idle task waits ⟨same, own⟩
    rw [same] at there
    rw [Option.bind_some, OrdMap.get?_erase_of_ne _ _ other]
    cases inner : s.buckets.get? prev_hash with
    | none => simp [inner] at there
    | some by_proof => simpa [inner] using there
  · exact there

theorem Sound.step (sound : s.Sound env inputs) (apart : NoCollision env.crypto inputs)
    {event : SidecarEvent} (assumed : s.Assumed env inputs event) (guarded : s.Guarded event) :
    (s.step env event).Sound env inputs := by
  cases event with
  | header hash pprev hashPoW => exact sound.header pprev hashPoW assumed
  | message sc => exact sound.message apart assumed guarded
  | take => exact sound.taken
  | complete skipped => exact sound.completed apart skipped
  | pruneHeader hash =>
    refine ⟨sound.null, sound.parents, fun other info found => ?_, sound.disk, sound.tasks⟩
    by_cases same : other = hash
    · simp [SidecarState.step, same] at found
    · exact sound.entries other info ((OrdMap.get?_erase_of_ne _ _ same).symm.trans found)
  | pruneBucket prev_hash proof_id => exact sound.pruneBucket guarded
  | stored hash block =>
    refine ⟨sound.null, sound.parents, sound.entries, fun other found there => ?_, sound.tasks⟩
    by_cases same : other = hash
    · subst same
      obtain rfl := Option.some.inj ((OrdMap.get?_insert_self _ _ _).symm.trans there)
      exact assumed
    · exact sound.disk other found ((OrdMap.get?_insert_of_ne _ _ _ same).symm.trans there)
  | removed hash =>
    refine ⟨sound.null, sound.parents, sound.entries, fun other found there => ?_, sound.tasks⟩
    by_cases same : other = hash
    · simp [SidecarState.step, same] at there
    · exact sound.disk other found ((OrdMap.get?_erase_of_ne _ _ same).symm.trans there)
  | drained hash block => exact sound.drained apart assumed guarded
  | compute tip => exact sound.walked apart _ _ _

theorem Sound.run (apart : NoCollision env.crypto inputs) (events : List SidecarEvent) :
    ∀ {s : SidecarState}, s.Sound env inputs →
      AllAlong env (fun s event => s.Assumed env inputs event ∧ s.Guarded event) s events →
        (s.run env events).Sound env inputs := by
  induction events with
  | nil => exact fun sound _ => sound
  | cons event events ih => exact fun sound along => ih (sound.step apart along.1.1 along.1.2) along.2

theorem initial_sound (env : SidecarEnv) (inputs : List Bytes) {genesis : Uint256} (hashPoW : Uint256)
    (nonzero : genesis ≠ 0) : (initial genesis hashPoW).Sound env inputs := by
  refine ⟨?_, fun hash e parent known up => ?_, ?_, ?_, ?_⟩
  · simp [initial, OrdMap.get?_insert, nonzero.symm]
  · by_cases same : hash = genesis
    · subst same
      rw [initial, OrdMap.get?_insert_self] at known
      cases known
      exact absurd up (by simp)
    · rw [initial, OrdMap.get?_insert_of_ne _ _ _ same] at known
      exact absurd known (by simp)
  all_goals simp [initial]

end Steps

/-- When each sidecar comes after its header, no bucket is pruned under a task and a connected block
finds an entry: a valid entry has the committed tick and proof, the proof is verified, and a
returned count from genesis is the sum of the committed ticks. -/
theorem valid_sidecars_are_genuine (env : SidecarEnv) (inputs : List Bytes)
    (apart : NoCollision env.crypto inputs) (genesis hashPoW : Uint256) (nonzero : genesis ≠ 0)
    (events : List SidecarEvent) (along : AllAlong env (fun s event => s.Assumed env inputs event ∧ s.Guarded event)
      (initial genesis hashPoW) events) :
    (∀ hash info e, ((initial genesis hashPoW).run env events).headers.get? hash = some info →
      ((initial genesis hashPoW).run env events).index.get? hash = some e → info.status = .VALID →
      env.Required e.nHeight →
        (∀ tick vdf, Committed env.crypto inputs e.hashPoW tick vdf ↔ tick = info.tick ∧ vdf = info.vdf) ∧
        env.verifyAgainstPrevHash e.prevHash info.vdf info.tick = true) ∧
    ∀ tip e total, ((initial genesis hashPoW).run env events).index.get? tip = some e → env.RequiredUpTo e.nHeight →
      (((initial genesis hashPoW).run env events).computeCumFromGenesis tip).2 = some total →
        CommittedSum env.crypto inputs ((initial genesis hashPoW).run env events).index tip total := by
  have sound := Sound.run apart events (initial_sound env inputs hashPoW nonzero) along
  refine ⟨fun hash info e found known valid required => ?_, fun tip e total known required returned => ?_⟩
  · obtain ⟨e', there, values, _⟩ := sound.entries hash info found
    obtain rfl := Option.mem_unique there known
    obtain ⟨committed, verified⟩ := values required
    refine ⟨fun tick vdf => ⟨fun other => other.unique apart committed, ?_⟩, verified valid⟩
    rintro ⟨rfl, rfl⟩
    exact committed
  · obtain ⟨sum, sums, rfl⟩ := sound.cumWalk apart _ known required returned
    rwa [Fin.zero_add]

end SidecarState

namespace SidecarRun

open RegChain SidecarState

/-- One proof on the genesis block is genuine. -/
def env (vdf : Bytes) (tick : UInt64) : SidecarEnv where
  crypto := crypto
  verifyAgainstPrevHash prev_hash vdf' tick' := decide (prev_hash = 1 ∧ vdf' = vdf ∧ tick' = tick)
  isVdfSpvActive _ := true
  isVdfVdfVerifyActive _ := true

def hashPoW : Uint256 := crypto.hashPair (crypto.hashPair (tickLeaf crypto 9) (vdfLeaf crypto [9])) 0

def sidecar : VdfExtSidecar where
  header_hash := 2
  prev_hash := 1
  tick := 9
  vdf := [9]
  merkle_branch_tick := [vdfLeaf crypto [9], 0]
  merkle_branch_vdf := [tickLeaf crypto 9, 0]

def early : VdfExtSidecar where
  header_hash := 2
  prev_hash := 1
  tick := 3
  vdf := [5]

def inputs : List Bytes := sidecar.inputs crypto ++ early.inputs crypto

theorem inputs_apart : NoCollision crypto inputs := by decide +kernel

theorem two_ne_null : (2 : Uint256) ≠ 0 := by decide

theorem committed : Committed crypto inputs hashPoW 9 [9] := ⟨0, rfl, by decide +kernel⟩

end SidecarRun

open SidecarRun SidecarState in
/-- The header is known, its sidecar arrives and is verified. -/
theorem genuine_sidecar_is_valid : ∃ info, ((initial 1 hashPoW).run (env [9] 9)
      [.header 2 1 hashPoW, .message sidecar, .take, .complete false]).headers.get? 2 = some info ∧
      (∀ tick vdf, Committed RegChain.crypto inputs hashPoW tick vdf ↔ tick = info.tick ∧ vdf = info.vdf) ∧
      (env [9] 9).verifyAgainstPrevHash 1 info.vdf info.tick = true := by
  have indexed : (((initial 1 hashPoW).step (env [9] 9) (.header 2 1 hashPoW)).index.contains 2) = true := by
    decide +kernel
  have along : AllAlong (env [9] 9)
      (fun s event => s.Assumed (env [9] 9) inputs event ∧ s.Guarded event) (initial 1 hashPoW)
      [.header 2 1 hashPoW, .message sidecar, .take, .complete false] :=
    ⟨⟨two_ne_null, trivial⟩, ⟨List.subset_append_left _ _, indexed⟩, ⟨trivial, trivial⟩, ⟨trivial, trivial⟩, trivial⟩
  refine ⟨⟨.VALID, 9, [9], 0, false⟩, by decide +kernel, ?_⟩
  exact (valid_sidecars_are_genuine (env [9] 9) inputs inputs_apart 1 hashPoW (by decide) _ along).1 2
    ⟨.VALID, 9, [9], 0, false⟩ ⟨some 1, 1, hashPoW⟩ (by decide +kernel) (by decide +kernel) rfl ⟨rfl, rfl⟩

open SidecarRun SidecarState in
/-- A sidecar before its header is not checked: once its proof is verified the entry is valid, with
a later sidecar's unverified tick and proof. And a connected block leaves a valid entry without the
proof. -/
theorem unverified_sidecar_is_valid : (AllAlong (env [5] 3) (Assumed (env [5] 3) inputs) (initial 1 hashPoW)
      [.message early, .header 2 1 hashPoW, .message sidecar, .take, .complete false] ∧
    ((initial 1 hashPoW).run (env [5] 3)
      [.message early, .header 2 1 hashPoW, .message sidecar, .take, .complete false]).headers.get? 2 =
        some ⟨.VALID, 9, [9], 0, false⟩ ∧ (env [5] 3).verifyAgainstPrevHash 1 [9] 9 = false) ∧
    AllAlong (env [9] 9) (Assumed (env [9] 9) inputs) (initial 1 hashPoW)
      [.header 2 1 hashPoW, .drained 2 ⟨9, [9], 18⟩] ∧
    ((initial 1 hashPoW).run (env [9] 9) [.header 2 1 hashPoW, .drained 2 ⟨9, [9], 18⟩]).headers.get? 2 =
      some ⟨.VALID, 9, [], 18, true⟩ := by
  have known : ((initial 1 hashPoW).step (env [9] 9) (.header 2 1 hashPoW)).index.get? 2 =
      some ⟨some 1, 1, hashPoW⟩ := by decide +kernel
  have root : ((initial 1 hashPoW).step (env [9] 9) (.header 2 1 hashPoW)).index.get? 1 =
      some ⟨none, 0, hashPoW⟩ := by decide +kernel
  have anchor : Assumed (env [9] 9) inputs ((initial 1 hashPoW).step (env [9] 9) (.header 2 1 hashPoW))
      (.drained 2 ⟨9, [9], 18⟩) :=
    ⟨_, known, fun _ => ⟨committed, fun _ => by decide⟩, fun _ _ =>
      .child known rfl (.genesis root rfl committed) committed⟩
  exact ⟨⟨⟨List.subset_append_right _ _, two_ne_null, List.subset_append_left _ _, trivial, trivial, trivial⟩,
    by decide +kernel, by decide⟩, ⟨two_ne_null, anchor, trivial⟩, by decide +kernel⟩

end TensorCash
