import TensorCash.Validation.RegChain

/-! The short hash of `AcceptBlockHeader` leaves out the bits and the commitment to the proof. -/

namespace TensorCash

open Checked

structure HeaderParams where
  nPowTargetTimespan : Nat := 14 * 24 * 60 * 60
  nPowTargetSpacing : Nat := 10 * 60
  fPowAllowMinDifficultyBlocks : Bool := false
  fPowNoRetargeting : Bool := false
  enforce_BIP94 : Bool := false
  BIP66Height : Nat := 1
  BIP65Height : Nat := 1

def HeaderParams.difficultyAdjustmentInterval (w : HeaderParams) : Nat :=
  w.nPowTargetTimespan / w.nPowTargetSpacing

def MAX_TIMEWARP : Int := 600

def MAX_FUTURE_BLOCK_TIME : Int := 2 * 60 * 60

/-- `RetargetSafe`: the old target times a ratio of times, in 256 bits. -/
def retargetSafe (old_target actual target pow_limit : Nat) : Nat :=
  if target = 0 then pow_limit
  else
    let q := old_target / target
    let r := old_target - q * target
    if actual ≠ 0 ∧ pow_limit / actual < q then pow_limit
    else
      -- The multiplication takes a factor of 32 bits.
      let out := q * (actual % 2 ^ 32) % 2 ^ 256
      let extra := r % 2 ^ 64 * actual / target
      if 0 < extra ∧ (pow_limit + 2 ^ 256 - extra % 2 ^ 64) % 2 ^ 256 < out then pow_limit
      else min pow_limit ((out + extra % 2 ^ 64) % 2 ^ 256)

/-- The parent of the next block with the blocks below it, down to the first. -/
structure IndexPath where
  last : CBlockHeader
  below : List CBlockHeader
deriving DecidableEq

namespace IndexPath

def nHeight (path : IndexPath) : Nat := path.below.length

def headers (path : IndexPath) : List CBlockHeader := path.last :: path.below

def ancestor (path : IndexPath) (depth : Nat) : CBlockHeader := path.headers.getD depth path.last

def getMedianTimePast (path : IndexPath) : Nat :=
  let times := ((path.headers.take 11).map fun h => h.nTime.toNat).insertionSort (· ≤ ·)
  times.getD (times.length / 2) 0

end IndexPath

def lastRegularBits (interval : Nat) (nProofOfWorkLimit : UInt32) : CBlockHeader → List CBlockHeader → UInt32
  | h, [] => h.nBits
  | h, next :: below =>
    if (next :: below).length % interval ≠ 0 ∧ h.nBits = nProofOfWorkLimit then
      lastRegularBits interval nProofOfWorkLimit next below
    else h.nBits

def calculateNextWorkRequired (params : Params) (w : HeaderParams) (path : IndexPath) : UInt32 :=
  if w.fPowNoRetargeting then path.last.nBits
  else
    let first := path.ancestor (w.difficultyAdjustmentInterval - 1)
    let span : Int := (path.last.nTime.toNat : Int) - first.nTime.toNat
    let actual := min (max span (w.nPowTargetTimespan / 4 : Nat)) (w.nPowTargetTimespan * 4 : Nat)
    let base := if w.enforce_BIP94 then first.nBits else path.last.nBits
    getCompact (retargetSafe (setCompact base).1 actual.toNat w.nPowTargetTimespan params.powLimit)

def getNextWorkRequired (params : Params) (w : HeaderParams) (path : IndexPath) (nTime : UInt32) : UInt32 :=
  let nProofOfWorkLimit := getCompact params.powLimit
  if (path.nHeight + 1) % w.difficultyAdjustmentInterval ≠ 0 then
    if w.fPowAllowMinDifficultyBlocks then
      if path.last.nTime.toNat + w.nPowTargetSpacing * 2 < nTime.toNat then nProofOfWorkLimit
      else lastRegularBits w.difficultyAdjustmentInterval nProofOfWorkLimit path.last path.below
    else path.last.nBits
  else calculateNextWorkRequired params w path

def hexDigits8 (n : UInt32) : String :=
  let digits := Nat.toDigits 16 n.toNat
  String.ofList (List.replicate (8 - digits.length) '0' ++ digits)

def contextualCheckBlockHeader (params : Params) (w : HeaderParams) (now : Int) (path : IndexPath)
    (block : CBlockHeader) : Except Failure Unit := do
  let nHeight := path.nHeight + 1
  let time : Int := block.nTime.toNat
  require (block.nBits = getNextWorkRequired params w path block.nTime)
    (.invalid .BLOCK_INVALID_HEADER "bad-diffbits")
  require (path.getMedianTimePast < block.nTime.toNat) (.invalid .BLOCK_INVALID_HEADER "time-too-old")
  require (¬ (w.enforce_BIP94 ∧ nHeight % w.difficultyAdjustmentInterval = 0 ∧
      time < path.last.nTime.toNat - MAX_TIMEWARP))
    (.invalid .BLOCK_INVALID_HEADER "time-timewarp-attack")
  require (time ≤ now + MAX_FUTURE_BLOCK_TIME) (.invalid .BLOCK_TIME_FUTURE "time-too-new")
  -- The version is a signed number.
  let nVersion := block.nVersion.toBitVec.toInt
  require (¬ (nVersion < 2 ∧ params.BIP34Height ≤ nHeight ∨ nVersion < 3 ∧ w.BIP66Height ≤ nHeight ∨
      nVersion < 4 ∧ w.BIP65Height ≤ nHeight))
    (.invalid .BLOCK_INVALID_HEADER ("bad-version(0x" ++ hexDigits8 block.nVersion ++ ")"))

/-- An entry of the index: the header with its `pprev` chain, and the marks on it. -/
structure HeaderNode where
  path : IndexPath
  /-- `nStatus & BLOCK_FAILED_MASK`. -/
  failed : Bool := false
  /-- The entry is validated up to `BLOCK_VALID_SCRIPTS`. -/
  validScripts : Bool := false
deriving DecidableEq

structure BlockMap where
  index : OrdMap Uint256 HeaderNode
  failedBlocks : List Uint256 := []

namespace BlockMap

def mark (s : BlockMap) (hash : Uint256) (change : HeaderNode → HeaderNode) : BlockMap :=
  match s.index.get? hash with
  | some node => { s with index := s.index.insert hash (change node) }
  | none => s

def descendants (c : Crypto) (path : IndexPath) (failed : Uint256) : List Uint256 :=
  (path.headers.map fun h => h.getHash c).takeWhile (· ≠ failed)

def addToBlockIndex (s : BlockMap) (hash : Uint256) (block : CBlockHeader) : BlockMap :=
  if s.index.contains hash then s
  else
    let below := match s.index.get? block.hashPrevBlock with
      | some prev => prev.path.headers
      | none => []
    { s with index := s.index.insert hash { path := ⟨block, below⟩ } }

def admitHeader (s : BlockMap) (hash : Uint256) (block : CBlockHeader) (min_pow_checked : Bool) :
    BlockMap × Except Failure Unit :=
  if min_pow_checked then (s.addToBlockIndex hash block, .ok ⟨⟩)
  else (s, .error (.invalid .BLOCK_HEADER_LOW_WORK "too-little-chainwork"))

def acceptBlockHeader (env : NodeEnv) (w : HeaderParams) (now : Int) (s : BlockMap)
    (block : CBlockHeader) (min_pow_checked : Bool) : BlockMap × Except Failure Unit :=
  let hash := block.getHash env.crypto
  if hash = env.params.hashGenesisBlock then s.admitHeader hash block min_pow_checked
  else
    match s.index.get? hash with
    | some known => (s, if known.failed then .error (.invalid .BLOCK_CACHED_INVALID "duplicate-invalid") else .ok ⟨⟩)
    | none =>
      match checkBlockHeader env true block with
      | .error failure => (s, .error failure)
      | .ok _ =>
        match s.index.get? block.hashPrevBlock with
        | none => (s, .error (.invalid .BLOCK_MISSING_PREV "prev-blk-not-found"))
        | some prev =>
          if prev.failed then (s, .error (.invalid .BLOCK_INVALID_PREV "bad-prevblk"))
          else
            match contextualCheckBlockHeader env.params w now prev.path block with
            | .error failure => (s, .error failure)
            | .ok _ =>
              let hashes := prev.path.headers.map fun h => h.getHash env.crypto
              -- A parent whose scripts are checked is not compared with the failed blocks.
              match (if prev.validScripts then none else s.failedBlocks.find? (· ∈ hashes)) with
              | some failed =>
                ((descendants env.crypto prev.path failed).foldl
                  (fun s hash => s.mark hash fun node => { node with failed := true }) s,
                  .error (.invalid .BLOCK_INVALID_PREV "bad-prevblk"))
              | none => s.admitHeader hash block min_pow_checked

/-- Headers arrive, and blocks are validated, fail, or get another chance. -/
inductive Event where
  | header (now : Int) (block : CBlockHeader) (min_pow_checked : Bool)
  | scripts (hash : Uint256)
  | fail (hash : Uint256)
  | reconsider (hash : Uint256)

def step (env : NodeEnv) (w : HeaderParams) (s : BlockMap) : Event → BlockMap
  | .header now block min_pow_checked => (s.acceptBlockHeader env w now block min_pow_checked).1
  | .scripts hash => s.mark hash fun node => { node with validScripts := true }
  | .fail hash =>
    let marked := s.mark hash fun node => { node with failed := true }
    { marked with failedBlocks := hash :: s.failedBlocks }
  | .reconsider hash =>
    let marked := s.mark hash fun node => { node with failed := false }
    { marked with failedBlocks := s.failedBlocks.filter (· ≠ hash) }

def initial (env : NodeEnv) (genesis : CBlockHeader) : BlockMap where
  index := (∅ : OrdMap Uint256 HeaderNode).insert env.params.hashGenesisBlock { path := ⟨genesis, []⟩ }

def run (env : NodeEnv) (w : HeaderParams) (genesis : CBlockHeader) (events : List Event) : BlockMap :=
  events.foldl (step env w) (initial env genesis)

section Index

variable {env : NodeEnv} {w : HeaderParams} {s s' : BlockMap} {hash : Uint256} {node : HeaderNode}

def paths (s : BlockMap) (hash : Uint256) : Option IndexPath := (s.index.get? hash).map HeaderNode.path

variable {change : HeaderNode → HeaderNode} {block : CBlockHeader} {min_pow_checked : Bool}

theorem paths_mark (s : BlockMap) (hash : Uint256)
    (kept : ∀ node, (change node).path = node.path) : (s.mark hash change).paths = s.paths := by
  funext other
  unfold mark paths
  split
  · next node known =>
    dsimp only
    rw [OrdMap.get?_insert]
    -- A mark changes the entry under its hash, and not its path.
    split_ifs with own
    · rw [own, known, Option.map_some, Option.map_some, kept]
    · rfl
  · rfl

structure Worked (env : NodeEnv) (w : HeaderParams) (paths : Uint256 → Option IndexPath) (hash : Uint256)
    (path : IndexPath) : Prop where
  hashed : path.last.getHash env.crypto = hash
  work : checkProofOfWork (path.last.getShortHash env.crypto) path.last.nAdjBits env.params = true
  bits : ∃ prev, paths path.last.hashPrevBlock = some prev ∧
    path.last.nBits = getNextWorkRequired env.params w prev path.last.nTime

def AllWorked (env : NodeEnv) (w : HeaderParams) (s : BlockMap) : Prop :=
  s.paths env.params.hashGenesisBlock ≠ none ∧
    ∀ hash path, s.paths hash = some path → hash ≠ env.params.hashGenesisBlock → Worked env w s.paths hash path

theorem AllWorked.of_paths (worked : s.AllWorked env w) (same : s'.paths = s.paths) : s'.AllWorked env w := by
  unfold AllWorked
  rw [same]
  exact worked

theorem paths_markAll (hashes : List Uint256) (s : BlockMap)
    (kept : ∀ node, (change node).path = node.path) :
    (hashes.foldl (fun s hash => s.mark hash change) s).paths = s.paths := by
  induction hashes generalizing s with
  | nil => rfl
  | cons hash rest ih => exact (ih _).trans (paths_mark s hash kept)

theorem paths_admit_of_known
    (known : s.paths hash ≠ none) : (s.admitHeader hash block min_pow_checked).1.paths = s.paths := by
  have there : s.index.contains hash = true := by
    unfold paths at known
    cases found : s.index.get? hash with
    | none =>
      rw [found] at known
      exact absurd rfl known
    | some node => rw [OrdMap.contains, found]; rfl
  unfold admitHeader addToBlockIndex
  rw [if_pos there]
  split_ifs <;> rfl

theorem paths_admit {prev : HeaderNode} (unknown : s.index.get? hash = none)
    (parent : s.index.get? block.hashPrevBlock = some prev) :
    (s.admitHeader hash block min_pow_checked).1.paths = s.paths ∨
    (s.admitHeader hash block min_pow_checked).1.paths =
      Function.update s.paths hash (some ⟨block, prev.path.headers⟩) := by
  unfold admitHeader addToBlockIndex
  have absent : ¬ s.index.contains hash = true := by
    rw [OrdMap.contains, unknown]
    simp
  rw [if_neg absent, parent]
  dsimp only
  split_ifs
  · right
    funext other
    unfold paths
    dsimp only
    rw [OrdMap.get?_insert, Function.update_apply]
    split_ifs <;> rfl
  · exact .inl rfl

theorem acceptBlockHeader_paths (s : BlockMap) (now : Int) (block : CBlockHeader)
    (min_pow_checked : Bool) (first : s.paths env.params.hashGenesisBlock ≠ none) :
    (s.acceptBlockHeader env w now block min_pow_checked).1.paths = s.paths ∨
      ∃ path, s.paths (block.getHash env.crypto) = none ∧
        (s.acceptBlockHeader env w now block min_pow_checked).1.paths =
          Function.update s.paths (block.getHash env.crypto) (some path) ∧
        Worked env w s.paths (block.getHash env.crypto) path := by
  unfold acceptBlockHeader
  dsimp only
  by_cases genesis : block.getHash env.crypto = env.params.hashGenesisBlock
  · -- The first block is there, so nothing is added.
    rw [if_pos genesis]
    exact .inl (paths_admit_of_known (genesis ▸ first))
  rw [if_neg genesis]
  cases unknown : s.index.get? (block.getHash env.crypto) with
  -- A header that is known adds nothing.
  | some known => exact .inl rfl
  | none =>
    cases checked : checkBlockHeader env true block with
    | error failure => exact .inl rfl
    | ok _ =>
      cases parent : s.index.get? block.hashPrevBlock with
      | none => exact .inl rfl
      | some prev =>
        dsimp only
        by_cases bad : prev.failed
        · rw [if_pos bad]
          exact .inl rfl
        rw [if_neg bad]
        cases contextual : contextualCheckBlockHeader env.params w now prev.path block with
        | error failure => exact .inl rfl
        | ok _ =>
          dsimp only
          split
          · -- Marks on the way down to a failed block leave the paths alone.
            exact .inl (paths_markAll _ s fun _ => rfl)
          · rcases paths_admit unknown parent with same | added
            · exact .inl same
            · refine .inr ⟨_, by rw [paths, unknown]; rfl, added, rfl, ?_, prev.path, ?_, ?_⟩
              -- The work was checked on the short hash, the bits against the parent.
              · exact require_eq_ok.mp checked rfl
              · rw [paths, parent]
                rfl
              · exact (require_bind_eq_ok.mp contextual).1

theorem AllWorked.step (worked : s.AllWorked env w) (event : Event) : (s.step env w event).AllWorked env w := by
  cases event with
  | scripts hash => exact worked.of_paths (paths_mark s hash fun _ => rfl)
  | fail hash => exact worked.of_paths (paths_mark s hash fun _ => rfl)
  | reconsider hash => exact worked.of_paths (paths_mark s hash fun _ => rfl)
  | header now block min_pow_checked =>
    obtain ⟨first, each⟩ := worked
    rcases acceptBlockHeader_paths (w := w) s now block min_pow_checked first with
      same | ⟨path, unknown, added, new⟩
    · exact AllWorked.of_paths ⟨first, each⟩ same
    · -- The new header's parent is an older one, and so are those of the others.
      have older : ∀ other path', s.paths other = some path' →
          (s.acceptBlockHeader env w now block min_pow_checked).1.paths other = some path' := by
        intro other path' known
        rw [added, Function.update_of_ne, known]
        rintro rfl
        rw [unknown] at known
        cases known
      have lift : ∀ hash path', Worked env w s.paths hash path' →
          Worked env w (s.acceptBlockHeader env w now block min_pow_checked).1.paths hash path' := by
        rintro hash path' ⟨hashed, work, prev, parent, bits⟩
        exact ⟨hashed, work, prev, older _ _ parent, bits⟩
      refine ⟨fun none => ?_, fun hash path' known above => ?_⟩
      · obtain ⟨path', there⟩ := Option.ne_none_iff_exists'.mp first
        exact absurd (none.symm.trans (older _ _ there)) (by simp)
      · show Worked env w (s.acceptBlockHeader env w now block min_pow_checked).1.paths hash path'
        have known : (s.acceptBlockHeader env w now block min_pow_checked).1.paths hash = some path' := known
        by_cases own : hash = block.getHash env.crypto
        · subst own
          rw [added, Function.update_self] at known
          cases known
          exact lift _ _ new
        · rw [added, Function.update_of_ne own] at known
          exact lift _ _ (each hash path' known above)

theorem run_allWorked (env : NodeEnv) (w : HeaderParams) (genesis : CBlockHeader) (events : List Event) :
    (run env w genesis events).AllWorked env w := by
  -- A new node has the first block only.
  have start : (initial env genesis).AllWorked env w := by
    refine ⟨by simp [paths, initial], fun hash path known above => ?_⟩
    simp [paths, initial, OrdMap.get?_insert, above] at known
  unfold run
  generalize initial env genesis = s at start
  induction events generalizing s with
  | nil => exact start
  | cons event rest ih => exact ih _ (start.step event)

end Index

end BlockMap

/-- The hashed fields of a header without its commitment to the proof. -/
structure CommittedFields where
  nVersion : UInt32
  hashPrevBlock : Uint256
  hashMerkleRoot : Uint256
  nTime : UInt32
  nBits : UInt32
  nNonce : UInt32
  nAdjBits : UInt32

def CBlockHeader.committed (h : CBlockHeader) : CommittedFields :=
  ⟨h.nVersion, h.hashPrevBlock, h.hashMerkleRoot, h.nTime, h.nBits, h.nNonce, h.nAdjBits⟩

theorem serializeShort_inj {a b : CBlockHeader} (same : a.serializeShort = b.serializeShort) :
    { a.committed with nBits := b.nBits } = b.committed := by
  simp only [CBlockHeader.serializeShort, List.flatten_cons, List.flatten_nil] at same
  -- Every field has a fixed size.
  obtain ⟨version, same⟩ := serUInt32_selfDelimiting trivial trivial same
  obtain ⟨parent, same⟩ := bytes_selfDelimiting trivial trivial same
  obtain ⟨root, same⟩ := bytes_selfDelimiting trivial trivial same
  obtain ⟨time, same⟩ := serUInt32_selfDelimiting trivial trivial same
  obtain ⟨adjusted, same⟩ := serUInt32_selfDelimiting trivial trivial same
  obtain ⟨nonce, _⟩ := serUInt32_selfDelimiting trivial trivial same
  simp only [CBlockHeader.committed, version, parent, root, time, adjusted, nonce]

/-- **Two indexed headers have different short headers**, which their proofs of work are about,
exactly when they differ in a hashed field besides the commitment to the proof. -/
theorem headers_bound_to_work_iff (env : NodeEnv) (w : HeaderParams) (genesis : CBlockHeader)
    (events : List BlockMap.Event) {hash hash' : Uint256} {node node' : HeaderNode}
    (known : (BlockMap.run env w genesis events).index.get? hash = some node)
    (known' : (BlockMap.run env w genesis events).index.get? hash' = some node')
    (above : hash ≠ env.params.hashGenesisBlock) (above' : hash' ≠ env.params.hashGenesisBlock) :
    node.path.last.serializeShort ≠ node'.path.last.serializeShort ↔
      node.path.last.committed ≠ node'.path.last.committed := by
  refine not_congr ⟨fun same => ?_, fun same => ?_⟩
  · obtain ⟨_, each⟩ := BlockMap.run_allWorked env w genesis events
    obtain ⟨_, _, prev, parent, bits⟩ := each hash node.path
      (by rw [BlockMap.paths, known]; rfl) above
    obtain ⟨_, _, prev', parent', bits'⟩ := each hash' node'.path
      (by rw [BlockMap.paths, known']; rfl) above'
    have fields := serializeShort_inj same
    -- One parent and one time lead to the same bits.
    have parents := congrArg CommittedFields.hashPrevBlock fields
    have times := congrArg CommittedFields.nTime fields
    simp only [CBlockHeader.committed] at parents times
    rw [parents, parent'] at parent
    cases parent
    rw [← fields, ← show node.path.last.nBits = node'.path.last.nBits by rw [bits, bits', times]]
    rfl
  · simp only [CBlockHeader.committed, CommittedFields.mk.injEq] at same
    obtain ⟨version, parent, root, time, _, nonce, adjusted⟩ := same
    simp only [CBlockHeader.serializeShort, version, parent, root, time, nonce, adjusted]

namespace RegChain

def headerParams : HeaderParams where
  nPowTargetTimespan := 24 * 60 * 60
  fPowAllowMinDifficultyBlocks := true
  fPowNoRetargeting := true
  enforce_BIP94 := true

def childHeader (nNonce : UInt32) (hashPoW : Uint256) : CBlockHeader where
  nVersion := 4
  hashPrevBlock := env.params.hashGenesisBlock
  nTime := 1
  nBits := 0x207fffff
  nAdjBits := 0x207fffff
  nNonce
  hashPoW

def headerRun (headers : List CBlockHeader) : BlockMap :=
  BlockMap.run env.toNodeEnv headerParams genesis.toCBlockHeader
    (headers.map fun h => .header 0 h true)

end RegChain

open RegChain in
/-- Two headers that differ in nonce and commitment have different short headers. -/
theorem headers_bound_to_work_by_nonce : ∃ node node',
    (headerRun [childHeader 1 5, childHeader 2 6]).index.get? ((childHeader 1 5).getHash crypto) = some node ∧
      (headerRun [childHeader 1 5, childHeader 2 6]).index.get? ((childHeader 2 6).getHash crypto) = some node' ∧
      (childHeader 1 5).getHash crypto ≠ (childHeader 2 6).getHash crypto ∧
      node.path.last.serializeShort ≠ node'.path.last.serializeShort := by
  have evaluated : (headerRun [childHeader 1 5, childHeader 2 6]).index.get?
        ((childHeader 1 5).getHash crypto) = some { path := ⟨childHeader 1 5, [genesis.toCBlockHeader]⟩ } ∧
      (headerRun [childHeader 1 5, childHeader 2 6]).index.get?
        ((childHeader 2 6).getHash crypto) = some { path := ⟨childHeader 2 6, [genesis.toCBlockHeader]⟩ } := by
    decide +kernel
  refine ⟨_, _, evaluated.1, evaluated.2, by decide +kernel, ?_⟩
  refine (headers_bound_to_work_iff env.toNodeEnv headerParams genesis.toCBlockHeader _ evaluated.1
    evaluated.2 (by decide +kernel) (by decide +kernel)).mpr fun same => ?_
  exact absurd (congrArg CommittedFields.nNonce same) (by decide)

open RegChain in
/-- One proof of work admits two headers that differ in the commitment alone. -/
theorem work_admits_two_headers : (childHeader 1 5).getHash crypto ≠ (childHeader 1 6).getHash crypto ∧
      (childHeader 1 5).serializeShort = (childHeader 1 6).serializeShort ∧
      checkProofOfWork ((childHeader 1 5).getShortHash crypto) (childHeader 1 5).nAdjBits env.params = true ∧
      (headerRun [childHeader 1 5, childHeader 1 6]).index.get? ((childHeader 1 5).getHash crypto) =
        some { path := ⟨childHeader 1 5, [genesis.toCBlockHeader]⟩ } ∧
      (headerRun [childHeader 1 5, childHeader 1 6]).index.get? ((childHeader 1 6).getHash crypto) =
        some { path := ⟨childHeader 1 6, [genesis.toCBlockHeader]⟩ } := by
  decide +kernel

end TensorCash
