import TensorCash.Net.VdfSidecars

/-! The worker thread with its cache of verified proofs. Anything may be forgotten at any time. -/

namespace TensorCash

namespace SidecarProgress

open SidecarState

def VDF_VERIFY_CACHE_TTL_SEC : Int := 600

/-- The sidecar maps, the taken tasks, skipped or not, and the cache. -/
structure Worker where
  state : SidecarState
  batch : List (VdfVerifyTask × Bool) := []
  cache : OrdMap Uint256 Int := ∅

inductive NetEvent where
  | message (sc : VdfExtSidecar)
  | check (now : Int)
  | apply (now : Int)
  | pruneHeader (hash : Uint256)
  | pruneBucket (prev_hash proof_id : Uint256)
  | pruneCache (key : Uint256)

def cacheKey (c : Crypto) (prev_hash : Uint256) (tick : UInt64) (vdf : Bytes) : Uint256 :=
  c.hash (prev_hash.bytes ++ serUInt64 tick ++ (c.hash vdf).bytes)

def taskKey (c : Crypto) (task : VdfVerifyTask) : Uint256 := cacheKey c task.prev_hash task.tick task.vdf

namespace Worker

def check (env : SidecarEnv) (now : Int) (s : Worker) : Worker :=
  match s.state.queue with
  | [] => s
  | task :: rest =>
    let key := taskKey env.crypto task
    let state := { s.state with queue := rest }
    match s.cache.get? key with
    | none => { s with state, batch := s.batch ++ [(task, false)] }
    | some inserted =>
      if now - inserted ≤ VDF_VERIFY_CACHE_TTL_SEC then { s with state, batch := s.batch ++ [(task, true)] }
      else { state, batch := s.batch ++ [(task, false)], cache := s.cache.erase key }

/-- The result of the first taken task; a skipped one changes nothing. -/
def apply (env : SidecarEnv) (now : Int) (s : Worker) : Worker :=
  match s.batch with
  | [] => s
  | (task, skip) :: rest =>
    if skip = false ∧ env.verifyAgainstPrevHash task.prev_hash task.vdf task.tick = true then
      ⟨s.state.finish task, rest, s.cache.insert (taskKey env.crypto task) now⟩
    else { s with batch := rest }

def step (env : SidecarEnv) (s : Worker) : NetEvent → Worker
  | .message sc => { s with state := s.state.headersExt env sc }
  | .check now => s.check env now
  | .apply now => s.apply env now
  | .pruneHeader hash => { s with state := s.state.step env (.pruneHeader hash) }
  | .pruneBucket prev_hash proof_id =>
    { s with state := s.state.step env (.pruneBucket prev_hash proof_id) }
  | .pruneCache key => { s with cache := s.cache.erase key }

def run (env : SidecarEnv) (s : Worker) (events : List NetEvent) : Worker := events.foldl (step env) s

def empty (index : OrdMap Uint256 HeaderIndex) : Worker where
  state := { index }

def status (s : Worker) (hash : Uint256) : Option VdfBucketStatus :=
  (s.state.headers.get? hash).map VdfHeaderInfo.status

def CaughtUp (s : Worker) : Prop := s.state.queue = [] ∧ s.batch = []

def Room (s : Worker) (prev_hash : Uint256) : Prop :=
  ((s.state.buckets.get? prev_hash).getD ∅).entries.length < VDF_MAX_BUCKETS_PER_PARENT ∧
    s.state.queue.length < VDF_MAX_VERIFY_QUEUE

end Worker

def NetEvent.IsWork : NetEvent → Prop
  | .check _ | .apply _ => True
  | _ => False

def Accepted (env : SidecarEnv) (index : OrdMap Uint256 HeaderIndex) (sc : VdfExtSidecar) : Prop :=
  estimateSidecarBytes sc ≤ VDF_MAX_SIDECAR_BYTES ∧
    ∃ hp, index.get? sc.header_hash = some hp ∧ checkSidecar env hp sc = .ok ⟨⟩

/-- Another message that shares neither the bucket nor the key in the cache. -/
def Apart (c : Crypto) (sc other : VdfExtSidecar) : Prop :=
  (other.prev_hash = sc.prev_hash → vdfLeaf c other.vdf ≠ vdfLeaf c sc.vdf) ∧
    cacheKey c other.prev_hash other.tick other.vdf ≠ cacheKey c sc.prev_hash sc.tick sc.vdf

section Work

variable {env : SidecarEnv} {sc : VdfExtSidecar}

section Changes

variable {s : SidecarState}

theorem enqueue_eq (s : SidecarState) (task : VdfVerifyTask) : (s.enqueueVdfVerifyTask task).index = s.index ∧
      (s.enqueueVdfVerifyTask task).headers = s.headers ∧ (s.enqueueVdfVerifyTask task).buckets = s.buckets ∧
      ∀ t ∈ (s.enqueueVdfVerifyTask task).queue, t ∈ s.queue ∨ t = task := by
  unfold enqueueVdfVerifyTask
  split
  · exact ⟨rfl, rfl, rfl, fun t member => .inl member⟩
  · exact ⟨rfl, rfl, rfl, fun t member => by simpa using member⟩

theorem track_eq (c : Crypto) (s : SidecarState) (sc : VdfExtSidecar) :
    (s.track c sc).index = s.index ∧ (s.track c sc).headers = s.headers ∧
      (∀ prev proof, ¬ (prev = sc.prev_hash ∧ proof = vdfLeaf c sc.vdf) →
        (s.track c sc).bucketAt prev proof = s.bucketAt prev proof) ∧ ∀ t ∈ (s.track c sc).queue,
        t ∈ s.queue ∨ t = ⟨sc.prev_hash, sc.vdf, sc.tick, vdfLeaf c sc.vdf⟩ := by
  unfold track
  split
  · exact ⟨rfl, rfl, fun _ _ _ => rfl, fun _ member => .inl member⟩
  · dsimp only
    split
    · exact ⟨rfl, rfl, fun _ _ _ => rfl, fun _ member => .inl member⟩
    · split
      · exact ⟨rfl, rfl, fun _ _ _ => rfl, fun _ member => .inl member⟩
      · obtain ⟨index, headers, buckets, queue⟩ := enqueue_eq
          (s.setBucket sc.prev_hash (vdfLeaf c sc.vdf)
            ⟨sc.header_hash, vdfLeaf c sc.vdf, sc.tick, .PENDING⟩)
          ⟨sc.prev_hash, sc.vdf, sc.tick, vdfLeaf c sc.vdf⟩
        refine ⟨index, headers, fun prev proof other => ?_, queue⟩
        rw [bucketAt, buckets, ← bucketAt, bucketAt_setBucket, if_neg other]

theorem headersExt_headers (env : SidecarEnv) (s : SidecarState) {hash : Uint256}
    (other : sc.header_hash = hash → ¬ Accepted env s.index sc) :
    (s.headersExt env sc).headers.get? hash = s.headers.get? hash := by
  unfold headersExt
  split
  · rfl
  · next small =>
    split
    · rw [(track_eq env.crypto s sc).2.1]
    · next hp known =>
      split
      · rfl
      · next ok =>
        -- The entry that is written is that of an accepted message.
        have differ : hash ≠ sc.header_hash := fun same => other same.symm ⟨not_lt.mp small, hp, known, ok⟩
        rw [(track_eq env.crypto (s.record sc) sc).2.1, record]
        exact OrdMap.get?_insert_of_ne _ _ _ differ

theorem headersExt_rest (env : SidecarEnv) (s : SidecarState) (sc : VdfExtSidecar) :
    (s.headersExt env sc).index = s.index ∧ (∀ prev proof, ¬ (prev = sc.prev_hash ∧ proof = vdfLeaf env.crypto sc.vdf) →
        (s.headersExt env sc).bucketAt prev proof = s.bucketAt prev proof) ∧ ∀ t ∈ (s.headersExt env sc).queue,
        t ∈ s.queue ∨ t = ⟨sc.prev_hash, sc.vdf, sc.tick, vdfLeaf env.crypto sc.vdf⟩ := by
  unfold headersExt
  split
  · exact ⟨rfl, fun _ _ _ => rfl, fun _ member => .inl member⟩
  · split
    · exact ⟨(track_eq env.crypto s sc).1, (track_eq env.crypto s sc).2.2⟩
    · split
      · exact ⟨rfl, fun _ _ _ => rfl, fun _ member => .inl member⟩
      · exact ⟨(track_eq env.crypto (s.record sc) sc).1, (track_eq env.crypto (s.record sc) sc).2.2⟩

theorem tryCompute_status (headers : VdfHeaders) (hash prev : Uint256) (other : Uint256) :
    ((tryComputeCumForHeader headers hash prev).get? other).map VdfHeaderInfo.status =
      (headers.get? other).map VdfHeaderInfo.status := by
  -- Whatever entry is written has the status of the one it replaces.
  have kept : ∀ {info next : VdfHeaderInfo}, headers.get? hash = some info → next.status = info.status →
      ((headers.insert hash next).get? other).map VdfHeaderInfo.status =
        (headers.get? other).map VdfHeaderInfo.status := by
    intro info next found same
    rw [OrdMap.get?_insert]
    split
    · next own => rw [own, found, Option.map_some, Option.map_some, same]
    · rfl
  unfold tryComputeCumForHeader
  split
  · rfl
  · next info found =>
    split
    · rfl
    · split
      · exact kept found rfl
      · split
        · rfl
        · split
          · rfl
          · exact kept found rfl

theorem finish_status (s : SidecarState) (task : VdfVerifyTask) (hash : Uint256) :
    ((s.finish task).headers.get? hash).map VdfHeaderInfo.status =
      if (s.bucketAt task.prev_hash task.proof_id).map VdfBucket.representative = some hash then
        (s.headers.get? hash).map fun _ => .VALID
      else (s.headers.get? hash).map VdfHeaderInfo.status := by
  unfold finish
  cases found : s.bucketAt task.prev_hash task.proof_id with
  | none => simp
  | some bucket =>
    simp only [Option.map_some, Option.some.injEq]
    rw [tryCompute_status]
    simp only [setBucket]
    cases entry : s.headers.get? bucket.representative with
    | none =>
      simp only
      by_cases own : bucket.representative = hash
      · rw [if_pos own, ← own, entry]; rfl
      · rw [if_neg own]
    | some info =>
      simp only [OrdMap.get?_insert]
      -- The bucket decides which header is marked, not the task.
      by_cases own : hash = bucket.representative
      · rw [if_pos own, if_pos own.symm, own, entry]; rfl
      · rw [if_neg own, if_neg (Ne.symm own)]

theorem finish_rest (s : SidecarState) (task : VdfVerifyTask) :
    (s.finish task).index = s.index ∧ (s.finish task).queue = s.queue ∧
      ∀ prev proof, ((s.finish task).bucketAt prev proof).map VdfBucket.representative =
        (s.bucketAt prev proof).map VdfBucket.representative := by
  unfold finish
  cases found : s.bucketAt task.prev_hash task.proof_id with
  | none => exact ⟨rfl, rfl, fun _ _ => rfl⟩
  | some bucket =>
    refine ⟨rfl, rfl, fun prev proof => ?_⟩
    have set := bucketAt_setBucket s task.prev_hash task.proof_id { bucket with status := .VALID } prev proof
    rw [bucketAt] at set ⊢
    simp only
    rw [set]
    split
    · next own => rw [own.1, own.2, found]; rfl
    · rfl

end Changes

section Progress

variable {index : OrdMap Uint256 HeaderIndex} {s : Worker} {state : SidecarState}
  {task : VdfVerifyTask} {hash : Uint256} {now : Int} {events : List NetEvent}

theorem finish_valid
    (valid : (state.headers.get? hash).map VdfHeaderInfo.status = some .VALID) :
    ((state.finish task).headers.get? hash).map VdfHeaderInfo.status = some .VALID := by
  rw [finish_status]
  split
  · obtain ⟨info, found, _⟩ := Option.map_eq_some_iff.mp valid
    rw [found]; rfl
  · exact valid

theorem check_nil (waits : s.state.queue = []) : s.check env now = s := by
  simp only [Worker.check, waits]

theorem check_cons (env : SidecarEnv) (now : Int) {rest : List VdfVerifyTask}
    (waits : s.state.queue = task :: rest) :
    ∃ skip cache, s.check env now = ⟨{ s.state with queue := rest }, s.batch ++ [(task, skip)], cache⟩ ∧
      (s.cache.get? (taskKey env.crypto task) = none → skip = false) ∧
      ∀ key, s.cache.get? key = none → cache.get? key = none := by
  cases found : s.cache.get? (taskKey env.crypto task) with
  | none => exact ⟨false, s.cache, by simp only [Worker.check, waits, found], fun _ => rfl, fun _ absent => absent⟩
  | some inserted =>
    by_cases recent : now - inserted ≤ VDF_VERIFY_CACHE_TTL_SEC
    · exact ⟨true, s.cache, by simp only [Worker.check, waits, found, if_pos recent], (nomatch ·),
        fun _ absent => absent⟩
    · refine ⟨false, s.cache.erase (taskKey env.crypto task),
        by simp only [Worker.check, waits, found, if_neg recent], fun _ => rfl, fun key absent => ?_⟩
      rw [OrdMap.get?_erase, absent, ite_self]

structure Clear (env : SidecarEnv) (index : OrdMap Uint256 HeaderIndex) (sc : VdfExtSidecar) (s : Worker) : Prop where
  index_eq : s.state.index = index
  bucket : s.state.bucketAt sc.prev_hash (vdfLeaf env.crypto sc.vdf) = none
  queue : ∀ t ∈ s.state.queue, taskKey env.crypto t ≠ cacheKey env.crypto sc.prev_hash sc.tick sc.vdf
  batch : ∀ t ∈ s.batch, taskKey env.crypto t.1 ≠ cacheKey env.crypto sc.prev_hash sc.tick sc.vdf
  cache : s.cache.get? (cacheKey env.crypto sc.prev_hash sc.tick sc.vdf) = none

theorem Clear.empty (env : SidecarEnv) (index : OrdMap Uint256 HeaderIndex) (sc : VdfExtSidecar) :
    Clear env index sc (.empty index) where
  index_eq := rfl
  bucket := rfl
  queue _ member := nomatch member
  batch _ member := nomatch member
  cache := rfl

theorem Clear.message (clear : Clear env index sc s) {other : VdfExtSidecar}
    (apart : Apart env.crypto sc other) : Clear env index sc (s.step env (.message other)) := by
  obtain ⟨index_eq, buckets, queue⟩ := headersExt_rest env s.state other
  refine ⟨index_eq.trans clear.index_eq, ?_, fun t member => ?_, clear.batch, clear.cache⟩
  -- The message is about another bucket.
  · exact (buckets _ _ fun own => apart.1 own.1.symm own.2.symm).trans clear.bucket
  · rcases queue t member with old | rfl
    · exact clear.queue t old
    · exact apart.2

theorem Clear.check (clear : Clear env index sc s) (now : Int) : Clear env index sc (s.check env now) := by
  cases waits : s.state.queue with
  | nil => rwa [check_nil waits]
  | cons task rest =>
    -- The task keeps its key on the way from the queue to the batch.
    obtain ⟨skip, cache, eq, _, kept⟩ := check_cons env now waits
    rw [eq]
    refine ⟨clear.index_eq, clear.bucket, fun t member => ?_, fun t member => ?_, kept _ clear.cache⟩
    · exact clear.queue t (by rw [waits]; exact List.mem_cons_of_mem _ member)
    · rcases List.mem_append.mp member with old | new
      · exact clear.batch t old
      · rw [List.mem_singleton.mp new]
        exact clear.queue task (by rw [waits]; exact List.mem_cons_self)

theorem Clear.apply (clear : Clear env index sc s) (now : Int) : Clear env index sc (s.apply env now) := by
  unfold Worker.apply
  split
  · exact clear
  · next task skip rest taken =>
    have others : ∀ t ∈ rest,
        taskKey env.crypto t.1 ≠ cacheKey env.crypto sc.prev_hash sc.tick sc.vdf := fun t member =>
      clear.batch t (by rw [taken]; exact List.mem_cons_of_mem _ member)
    split
    · obtain ⟨index_eq, queue, buckets⟩ := finish_rest s.state task
      have own := clear.batch (task, skip) (by rw [taken]; exact List.mem_cons_self)
      refine ⟨index_eq.trans clear.index_eq, ?_, by rw [queue]; exact clear.queue, others, ?_⟩
      · have none_there := buckets sc.prev_hash (vdfLeaf env.crypto sc.vdf)
        rw [clear.bucket] at none_there
        exact Option.map_eq_none_iff.mp none_there
      -- A result is cached under the key of its own task.
      · rw [OrdMap.get?_insert_of_ne _ _ _ own.symm]
        exact clear.cache
    · exact ⟨clear.index_eq, clear.bucket, clear.queue, others, clear.cache⟩

theorem bucketAt_prune (env : SidecarEnv) (state : SidecarState) (prev proof prev' proof' : Uint256)
    (free : state.bucketAt prev' proof' = none) :
    (state.step env (.pruneBucket prev proof)).bucketAt prev' proof' = none := by
  simp only [SidecarState.step, bucketAt] at free ⊢
  rw [OrdMap.get?_insert]
  split
  · next same =>
    subst same
    rw [Option.bind_some, OrdMap.get?_erase]
    split
    · rfl
    · cases found : state.buckets.get? prev' with
      | none => rfl
      | some by_proof => rw [found, Option.bind_some] at free; exact free
  · exact free

theorem Clear.step (clear : Clear env index sc s) {event : NetEvent}
    (apart : ∀ other, event = .message other → Apart env.crypto sc other) :
    Clear env index sc (s.step env event) := by
  cases event with
  | message other => exact clear.message (apart other rfl)
  | check now => exact clear.check now
  | apply now => exact clear.apply now
  | pruneHeader hash => exact ⟨clear.index_eq, clear.bucket, clear.queue, clear.batch, clear.cache⟩
  | pruneBucket prev proof =>
    exact ⟨clear.index_eq, bucketAt_prune env _ _ _ _ _ clear.bucket, clear.queue, clear.batch, clear.cache⟩
  | pruneCache key =>
    refine ⟨clear.index_eq, clear.bucket, clear.queue, clear.batch, ?_⟩
    simp only [Worker.step, OrdMap.get?_erase, clear.cache, ite_self]

theorem Clear.run (clear : Clear env index sc s)
    (apart : ∀ other, .message other ∈ events → Apart env.crypto sc other) :
    Clear env index sc (s.run env events) := by
  induction events generalizing s with
  | nil => exact clear
  | cons event rest ih =>
    refine ih (clear.step fun other same => ?_) fun other member => apart other (List.mem_cons_of_mem _ member)
    exact apart other (same ▸ List.mem_cons_self)

def taskOf (c : Crypto) (sc : VdfExtSidecar) : VdfVerifyTask :=
  ⟨sc.prev_hash, sc.vdf, sc.tick, vdfLeaf c sc.vdf⟩

def Harmless (c : Crypto) (sc : VdfExtSidecar) (task : VdfVerifyTask) : Prop :=
  task = taskOf c sc ∨ taskKey c task ≠ taskKey c (taskOf c sc)

structure OnItsWay (env : SidecarEnv) (sc : VdfExtSidecar) (s : Worker) : Prop where
  bucket : (s.state.bucketAt sc.prev_hash (vdfLeaf env.crypto sc.vdf)).map VdfBucket.representative =
    some sc.header_hash
  entry : (s.state.headers.get? sc.header_hash).isSome
  queue : ∀ t ∈ s.state.queue, Harmless env.crypto sc t
  batch : ∀ t ∈ s.batch, Harmless env.crypto sc t.1
  progress : s.status sc.header_hash = some .VALID ∨ (taskOf env.crypto sc ∈ s.state.queue ∧
      s.cache.get? (taskKey env.crypto (taskOf env.crypto sc)) = none) ∨ (taskOf env.crypto sc, false) ∈ s.batch

theorem OnItsWay.check (way : OnItsWay env sc s) (now : Int) : OnItsWay env sc (s.check env now) := by
  cases waits : s.state.queue with
  | nil => rwa [check_nil waits]
  | cons task rest =>
    obtain ⟨skip, cache, eq, unskipped, kept⟩ := check_cons env now waits
    rw [eq]
    refine ⟨way.bucket, way.entry, fun t member => ?_, fun t member => ?_, ?_⟩
    · exact way.queue t (by rw [waits]; exact List.mem_cons_of_mem _ member)
    · rcases List.mem_append.mp member with old | new
      · exact way.batch t old
      · rw [List.mem_singleton.mp new]
        exact way.queue task (by rw [waits]; exact List.mem_cons_self)
    · rcases way.progress with valid | ⟨waiting, absent⟩ | taken
      · exact .inl valid
      · rw [waits] at waiting
        rcases List.mem_cons.mp waiting with rfl | later
        · -- Nothing in the cache answers for the task.
          rw [unskipped absent]
          exact .inr (.inr (List.mem_append_right _ List.mem_cons_self))
        · exact .inr (.inl ⟨later, kept _ absent⟩)
      · exact .inr (.inr (List.mem_append_left _ taken))

theorem OnItsWay.finished (way : OnItsWay env sc s) :
    ((s.state.finish (taskOf env.crypto sc)).headers.get? sc.header_hash).map VdfHeaderInfo.status =
      some .VALID := by
  have mine : (s.state.bucketAt (taskOf env.crypto sc).prev_hash (taskOf env.crypto sc).proof_id).map
      VdfBucket.representative = some sc.header_hash := way.bucket
  rw [finish_status, if_pos mine]
  obtain ⟨info, found⟩ := Option.isSome_iff_exists.mp way.entry
  rw [found]
  rfl

theorem OnItsWay.apply (way : OnItsWay env sc s)
    (verified : env.verifyAgainstPrevHash sc.prev_hash sc.vdf sc.tick = true) (now : Int) :
    OnItsWay env sc (s.apply env now) := by
  unfold Worker.apply
  split
  · exact way
  · next task skip rest taken =>
    have others : ∀ t ∈ rest, Harmless env.crypto sc t.1 := fun t member =>
      way.batch t (by rw [taken]; exact List.mem_cons_of_mem _ member)
    have own : Harmless env.crypto sc task := way.batch (task, skip) (by rw [taken]; exact List.mem_cons_self)
    split
    · obtain ⟨_, queue, buckets⟩ := finish_rest s.state task
      refine ⟨(buckets _ _).trans way.bucket, ?_, by rw [queue]; exact way.queue, others, ?_⟩
      · have known := way.entry
        rw [← Option.isSome_map, finish_status]
        split <;> simpa using known
      -- The sidecar's own result makes the header valid; any other one leaves the way open.
      · by_cases same : task = taskOf env.crypto sc
        · exact .inl (by rw [same]; exact way.finished)
        · rcases way.progress with valid | ⟨waiting, absent⟩ | waits
          · exact .inl (finish_valid valid)
          · have key := own.resolve_left same
            refine .inr (.inl ⟨by rw [queue]; exact waiting, ?_⟩)
            rw [OrdMap.get?_insert_of_ne _ _ _ key.symm]
            exact absent
          · rw [taken] at waits
            rcases List.mem_cons.mp waits with head | later
            · exact absurd (Prod.mk.inj head).1.symm same
            · exact .inr (.inr later)
    · next unverified =>
      refine ⟨way.bucket, way.entry, way.queue, others, ?_⟩
      rcases way.progress with valid | waiting | waits
      · exact .inl valid
      · exact .inr (.inl waiting)
      · rw [taken] at waits
        rcases List.mem_cons.mp waits with head | later
        · obtain ⟨rfl, rfl⟩ := Prod.mk.inj head
          exact absurd ⟨rfl, verified⟩ unverified
        · exact .inr (.inr later)

theorem OnItsWay.run (way : OnItsWay env sc s)
    (verified : env.verifyAgainstPrevHash sc.prev_hash sc.vdf sc.tick = true)
    (work : ∀ event ∈ events, event.IsWork) : OnItsWay env sc (s.run env events) := by
  induction events generalizing s with
  | nil => exact way
  | cons event rest ih =>
    refine ih ?_ fun later member => work later (List.mem_cons_of_mem _ member)
    cases event with
    | check now => exact way.check now
    | apply now => exact way.apply verified now
    | message | pruneHeader | pruneBucket | pruneCache => exact (work _ List.mem_cons_self).elim

theorem OnItsWay.valid (way : OnItsWay env sc s) (caught : s.CaughtUp) :
    s.status sc.header_hash = some .VALID := by
  rcases way.progress with valid | ⟨waiting, _⟩ | waits
  · exact valid
  · rw [caught.1] at waiting; cases waiting
  · rw [caught.2] at waits; cases waits

structure Honest (env : SidecarEnv) (index : OrdMap Uint256 HeaderIndex) (sc : VdfExtSidecar) : Prop where
  accepted : Accepted env index sc
  proof : sc.vdf.isEmpty = false
  verified : env.verifyAgainstPrevHash sc.prev_hash sc.vdf sc.tick = true

theorem track_opens (c : Crypto) (proof : sc.vdf.isEmpty = false)
    (free : state.bucketAt sc.prev_hash (vdfLeaf c sc.vdf) = none)
    (buckets : ((state.buckets.get? sc.prev_hash).getD ∅).entries.length < VDF_MAX_BUCKETS_PER_PARENT)
    (queue : state.queue.length < VDF_MAX_VERIFY_QUEUE) : state.track c sc =
      { state.setBucket sc.prev_hash (vdfLeaf c sc.vdf)
          ⟨sc.header_hash, vdfLeaf c sc.vdf, sc.tick, .PENDING⟩ with
        queue := state.queue ++ [taskOf c sc] } := by
  -- No bucket with this proof is open on the parent.
  have absent : ((state.buckets.get? sc.prev_hash).getD ∅).contains (vdfLeaf c sc.vdf) = false := by
    rw [bucketAt] at free
    cases found : state.buckets.get? sc.prev_hash with
    | none => rfl
    | some by_proof =>
      rw [found, Option.bind_some] at free
      simp only [Option.getD_some, OrdMap.contains, free, Option.isSome_none]
  unfold track
  rw [if_neg (by simp [proof])]
  dsimp only
  rw [if_neg (by simp [absent]), if_neg (not_le.mpr buckets), enqueueVdfVerifyTask]
  exact if_neg (not_le.mpr queue)

theorem Clear.onItsWay (clear : Clear env index sc s) (honest : Honest env index sc)
    (room : s.Room sc.prev_hash) : OnItsWay env sc (s.step env (.message sc)) := by
  obtain ⟨small, hp, known, ok⟩ := honest.accepted
  -- The header is known and the checks pass, so the entry waits and the bucket opens.
  have message : s.state.headersExt env sc = (s.state.record sc).track env.crypto sc := by
    unfold headersExt
    rw [if_neg (not_lt.mpr small), clear.index_eq, known]
    simp only [ok]
  have free : (s.state.record sc).bucketAt sc.prev_hash (vdfLeaf env.crypto sc.vdf) = none := clear.bucket
  have opened := track_opens env.crypto honest.proof free room.1 room.2
  simp only [Worker.step, message, opened]
  refine ⟨?_, ?_, fun t member => ?_, fun t member => .inr (clear.batch t member), .inr (.inl ⟨?_, clear.cache⟩)⟩
  · have set := bucketAt_setBucket (s.state.record sc) sc.prev_hash (vdfLeaf env.crypto sc.vdf)
      ⟨sc.header_hash, vdfLeaf env.crypto sc.vdf, sc.tick, .PENDING⟩ sc.prev_hash (vdfLeaf env.crypto sc.vdf)
    rw [if_pos ⟨rfl, rfl⟩] at set
    exact congrArg (Option.map VdfBucket.representative) set
  · simp only [setBucket, record, OrdMap.get?_insert_self, Option.isSome_some]
  · rcases List.mem_append.mp member with old | new
    · exact .inr (clear.queue t old)
    · exact .inl (List.mem_singleton.mp new)
  · exact List.mem_append_right _ List.mem_cons_self

theorem check_headers (s : Worker) (now : Int) : (s.check env now).state.headers = s.state.headers := by
  cases waits : s.state.queue with
  | nil => rw [check_nil waits]
  | cons task rest =>
    obtain ⟨skip, cache, eq, _⟩ := check_cons env now waits
    rw [eq]

theorem apply_absent (absent : s.status hash = none) (now : Int) :
    (s.apply env now).status hash = none := by
  unfold Worker.apply
  split
  · exact absent
  · split
    · have none_there := Option.map_eq_none_iff.mp absent
      simp only [Worker.status, finish_status, none_there, Option.map_none, ite_self]
    · exact absent

theorem round_unverified (idle : s.batch = [])
    (unverified : ∀ t ∈ s.state.queue, env.verifyAgainstPrevHash t.prev_hash t.vdf t.tick = false)
    (now later : Int) (hash : Uint256) : ((s.check env now).apply env later).status hash = s.status hash := by
  cases waits : s.state.queue with
  | nil => rw [check_nil waits, Worker.apply, idle]
  | cons task rest =>
    obtain ⟨skip, cache, eq, _⟩ := check_cons env now waits
    have failing := unverified task (by rw [waits]; exact List.mem_cons_self)
    rw [eq, Worker.apply, idle]
    simp only [List.nil_append, failing, Bool.false_eq_true, and_false, if_false]
    rfl

theorem honest_of_valid {later : Int}
    (valid : ((Worker.empty index).run env [.message sc, .check now, .apply later]).status sc.header_hash =
      some .VALID) : Honest env index sc := by
  simp only [Worker.run, List.foldl_cons, List.foldl_nil, Worker.step] at valid
  have accepted : Accepted env index sc := by
    by_contra refused
    -- A refused message leaves no entry that the worker could mark.
    have untouched : ((Worker.empty index).state.headersExt env sc).headers.get? sc.header_hash =
        (Worker.empty index).state.headers.get? sc.header_hash := headersExt_headers env _ fun _ => refused
    rw [apply_absent] at valid
    · cases valid
    · rw [Worker.status, check_headers, untouched]
      rfl
  obtain ⟨small, hp, known, ok⟩ := accepted
  have message : (Worker.empty index).state.headersExt env sc =
      ((Worker.empty index).state.record sc).track env.crypto sc := by
    have there : (Worker.empty index).state.index.get? sc.header_hash = some hp := known
    unfold headersExt
    rw [if_neg (not_lt.mpr small), there]
    simp only [ok]
  obtain ⟨_, headers, _, queue⟩ := track_eq env.crypto ((Worker.empty index).state.record sc) sc
  -- The entry waits, and only a verified task can change that.
  have unchanged : (∀ t ∈ (((Worker.empty index).state.record sc).track env.crypto sc).queue,
      env.verifyAgainstPrevHash t.prev_hash t.vdf t.tick = false) → False := by
    intro unverified
    rw [message, round_unverified rfl unverified, Worker.status, headers, record, OrdMap.get?_insert_self] at valid
    cases valid
  refine ⟨⟨small, hp, known, ok⟩, ?_, ?_⟩
  · by_contra unproved
    refine unchanged fun t member => ?_
    rw [track, if_pos (by simpa using unproved)] at member
    cases member
  · by_contra unverified
    refine unchanged fun t member => ?_
    rcases queue t member with old | rfl
    · cases old
    · simpa using unverified

end Progress

end Work

theorem step_index (env : SidecarEnv) (s : Worker) (event : NetEvent) :
    (s.step env event).state.index = s.state.index := by
  cases event with
  | message sc => exact (headersExt_rest env s.state sc).1
  | check now =>
    cases waits : s.state.queue with
    | nil => rw [Worker.step, check_nil waits]
    | cons task rest =>
      obtain ⟨skip, cache, eq, _⟩ := check_cons env now waits
      rw [Worker.step, eq]
  | apply now =>
    unfold Worker.step Worker.apply
    dsimp only
    split
    · rfl
    · split
      · exact (finish_rest s.state _).1
      · rfl
  | pruneHeader | pruneBucket | pruneCache => rfl

theorem run_index (env : SidecarEnv) (index : OrdMap Uint256 HeaderIndex) (events : List NetEvent) :
    ((Worker.empty index).run env events).state.index = index := by
  have all : ∀ (events : List NetEvent) (s : Worker), (s.run env events).state.index = s.state.index := by
    intro events
    induction events with
    | nil => exact fun s => rfl
    | cons event rest ih => exact fun s => (ih _).trans (step_index env s event)
  exact all events _

theorem valid_kept {env : SidecarEnv} {index : OrdMap Uint256 HeaderIndex} {hash : Uint256} {s : Worker}
    {events : List NetEvent} (known : s.state.index = index) (valid : s.status hash = some .VALID)
    (unnamed : ∀ sc, .message sc ∈ events → sc.header_hash = hash → ¬ Accepted env index sc)
    (kept : .pruneHeader hash ∉ events) : (s.run env events).status hash = some .VALID := by
  induction events generalizing s with
  | nil => exact valid
  | cons event rest ih =>
    have next : (s.step env event).status hash = some .VALID := by
      cases event with
      -- A message for another header, or a refused one, writes another entry or none.
      | message sc =>
        rw [Worker.status, Worker.step, headersExt_headers env s.state fun same => ?_]
        · exact valid
        · rw [known]; exact unnamed sc List.mem_cons_self same
      | check now => rw [Worker.status, Worker.step, check_headers]; exact valid
      | apply now =>
        unfold Worker.step Worker.apply
        dsimp only
        split
        · exact valid
        · split
          · exact finish_valid valid
          · exact valid
      | pruneHeader other =>
        have differ : hash ≠ other := fun same => kept (same ▸ List.mem_cons_self)
        simp only [Worker.status, Worker.step, SidecarState.step, OrdMap.get?_erase_of_ne _ _ differ]
        exact valid
      | pruneBucket prev proof => exact valid
      | pruneCache key => exact valid
    exact ih ((step_index env s event).trans known) next (fun sc member => unnamed sc (List.mem_cons_of_mem _ member))
      fun member => kept (List.mem_cons_of_mem _ member)

def twoHeaders : OrdMap Uint256 HeaderIndex :=
  ((∅ : OrdMap Uint256 HeaderIndex).insert 1 ⟨none, 0, SidecarRun.hashPoW⟩).insert 2
    ⟨some 1, 1, SidecarRun.hashPoW⟩

def stranger (tick : UInt64) (vdf : Bytes) : VdfExtSidecar where
  header_hash := 77
  prev_hash := 1
  tick
  vdf

/-- A header's own sidecar is verified whatever came before, and the header stays valid, if no
earlier message shares the sidecar's parent and proof or its cache key and no later one is accepted
for the header. -/
theorem sidecar_verified_undisturbed (env : SidecarEnv) (index : OrdMap Uint256 HeaderIndex)
    {sc : VdfExtSidecar} {now after : Int}
    (honest : ((Worker.empty index).run env [.message sc, .check now, .apply after]).status
      sc.header_hash = some .VALID)
    (earlier : List NetEvent) (apart : ∀ other, .message other ∈ earlier → Apart env.crypto sc other)
    (room : ((Worker.empty index).run env earlier).Room sc.prev_hash)
    (work : List NetEvent) (worker : ∀ event ∈ work, event.IsWork)
    (caught : ((Worker.empty index).run env (earlier ++ .message sc :: work)).CaughtUp) :
    ((Worker.empty index).run env (earlier ++ .message sc :: work)).status sc.header_hash = some .VALID ∧
      ∀ later, (∀ other, .message other ∈ later → other.header_hash = sc.header_hash →
          ¬ Accepted env index other) → .pruneHeader sc.header_hash ∉ later →
        ((Worker.empty index).run env (earlier ++ .message sc :: work ++ later)).status sc.header_hash =
          some .VALID := by
  have good := honest_of_valid honest
  have clear : Clear env index sc ((Worker.empty index).run env earlier) := (Clear.empty env index sc).run apart
  have split : (Worker.empty index).run env (earlier ++ .message sc :: work) =
      (((Worker.empty index).run env earlier).step env (.message sc)).run env work := by
    simp only [Worker.run, List.foldl_append, List.foldl_cons]
  -- Until the sidecar nothing stands in its way, and from then on the worker brings it through.
  have way : OnItsWay env sc ((Worker.empty index).run env (earlier ++ .message sc :: work)) := by
    rw [split]
    exact (clear.onItsWay good room).run good.verified worker
  have valid := way.valid caught
  refine ⟨valid, fun later unnamed kept => ?_⟩
  have appended : (Worker.empty index).run env (earlier ++ .message sc :: work ++ later) =
      ((Worker.empty index).run env (earlier ++ .message sc :: work)).run env later := by
    simp only [Worker.run, List.foldl_append]
  rw [appended]
  exact valid_kept (run_index env index _) valid unnamed kept

open SidecarRun in
/-- A stranger's sidecar with another proof does no harm. -/
theorem sidecar_verified_after_stranger : ((Worker.empty twoHeaders).run (env [9] 9)
      ([.message (stranger 3 [5])] ++ .message sidecar :: [.check 0, .check 0, .apply 0, .apply 0] ++
        [.message (stranger 3 [6]), .check 1, .apply 1])).status 2 = some .VALID := by
  have honest : ((Worker.empty twoHeaders).run (env [9] 9)
      [.message sidecar, .check 0, .apply 0]).status sidecar.header_hash = some .VALID := by decide +kernel
  have apart : ∀ other, .message other ∈ [NetEvent.message (stranger 3 [5])] →
      Apart (env [9] 9).crypto sidecar other := by
    intro other member
    obtain rfl := NetEvent.message.inj (List.mem_singleton.mp member)
    exact ⟨fun _ => by decide +kernel, by decide +kernel⟩
  have caught : ((Worker.empty twoHeaders).run (env [9] 9) ([.message (stranger 3 [5])] ++
      .message sidecar :: [.check 0, .check 0, .apply 0, .apply 0])).CaughtUp :=
    ⟨List.eq_nil_of_length_eq_zero (by decide +kernel), List.eq_nil_of_length_eq_zero (by decide +kernel)⟩
  have verified := sidecar_verified_undisturbed (env [9] 9) twoHeaders honest [.message (stranger 3 [5])]
    apart ⟨by decide +kernel, by decide +kernel⟩ [.check 0, .check 0, .apply 0, .apply 0]
    (by simp [NetEvent.IsWork]) caught
  refine verified.2 [.message (stranger 3 [6]), .check 1, .apply 1] (fun other member same => ?_) (by simp)
  obtain rfl : other = stranger 3 [6] := by simpa using member
  exact absurd same (by decide)

open SidecarRun in
def overtaken : Worker := (Worker.empty twoHeaders).run (env [9] 9)
  [.message (stranger 9 [9]), .message sidecar, .check 0, .apply 0, .check 0, .apply 0]

open SidecarRun in
def repeated : Worker := (Worker.empty twoHeaders).run (env [9] 9)
  [.message sidecar, .check 0, .apply 0, .message sidecar, .check 0, .apply 0]

open SidecarRun in
/-- The stranger's bucket keeps the honest sidecar from ever being verified, and the sidecar sent
again makes a valid header wait for ever. -/
theorem sidecar_verification_disturbed :
    ((Worker.empty twoHeaders).run (env [9] 9) [.message sidecar, .check 0, .apply 0]).status 2 =
        some .VALID ∧ (overtaken.status 2 = some .PENDING ∧ overtaken.state.queue.length = 0 ∧
        overtaken.batch.length = 0) ∧ repeated.status 2 = some .PENDING ∧ repeated.state.queue.length = 0 ∧
        repeated.batch.length = 0 := by
  decide +kernel

end SidecarProgress

end TensorCash
