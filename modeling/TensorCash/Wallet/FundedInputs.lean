import TensorCash.Assets.Readers
import TensorCash.Wallet.DifficultySettlement

/-! What `wallet/option_series.cpp` and `wallet/scalar_note_pair.cpp` share. Every 64-bit sum is
checked where it is made. -/

namespace TensorCash

open Checked Codec Settlement

namespace Funding

def kMinAssetOutputDust : Int := 546
def kDefaultMaxAssetsPerTx : Nat := 64
def MAX_COVENANT_TX_OUTPUTS : Nat := 128

/-- Why a builder stops: it refuses with a text, or a sum has left its type. -/
inductive BuildError where
  | refused (err : String)
  | overflow
deriving DecidableEq

def BuildError.within (text : String) : BuildError → BuildError
  | refused err => .refused (text ++ err)
  | overflow => .overflow

def need (cond : Prop) [Decidable cond] (err : String) : Except BuildError PUnit := require cond (.refused err)

def int64 (x : Int) : Except BuildError Int := do
  require (-2 ^ 63 ≤ x ∧ x < 2 ^ 63) .overflow
  .ok x

def uint64 (x : Nat) : Except BuildError Nat := do
  require (x < 2 ^ 64) .overflow
  .ok x

section Safe

variable {α β σ : Type}

/-- A computation in which no sum leaves its type, and what its successes have. -/
def Safe (post : α → Prop) (x : Except BuildError α) : Prop := x ≠ .error .overflow ∧ Ensures post x

namespace Safe

variable {post : α → Prop} {goal : β → Prop}

theorem ok {a : α} (holds : post a) : Safe post (.ok a) := ⟨by simp, Ensures.ok holds⟩

theorem error (err : String) : Safe post (.error (.refused err)) := ⟨by simp, Ensures.error⟩

variable {x : Except BuildError α} {k : α → Except BuildError β} {cond : Prop} {err : String}

theorem bind (first : Safe post x)
    (rest : ∀ a, post a → Safe goal (k a)) : Safe goal (x >>= k) := by
  cases run : x with
  | error failure =>
    refine ⟨fun stopped => first.1 ?_, fun b returned => by cases returned⟩
    rw [run]
    cases stopped
    rfl
  | ok a => exact rest a (first.2 a run)

theorem need [Decidable cond] (err : String) : Safe (fun _ => cond) (need cond err) := by
  by_cases holds : cond
  · rw [Funding.need, require, if_pos holds]
    exact ok holds
  · rw [Funding.need, require, if_neg holds]
    exact error err

theorem need_bind [Decidable cond] {k : PUnit → Except BuildError β}
    (rest : cond → Safe goal (k ⟨⟩)) : Safe goal (Funding.need cond err >>= k) :=
  (need err).bind fun _ holds => rest holds

theorem demand_bind {value : Option α}
    (rest : ∀ a, value = some a → Safe goal (k a)) : Safe goal (demand value (.refused err) >>= k) := by
  cases value with
  | none => exact error err
  | some a => exact rest a rfl

theorem int64_bind {x : Int} {k : Int → Except BuildError β} (low : -2 ^ 63 ≤ x) (high : x < 2 ^ 63)
    (rest : Safe goal (k x)) : Safe goal (int64 x >>= k) := by
  rw [int64, require, if_pos ⟨low, high⟩]
  exact rest

theorem uint64_bind {x : Nat} {k : Nat → Except BuildError β} (high : x < 2 ^ 64)
    (rest : Safe goal (k x)) : Safe goal (uint64 x >>= k) := by
  rw [uint64, require, if_pos high]
  exact rest

theorem uint64 {x : Nat} (high : x < 2 ^ 64) : Safe (· = x) (uint64 x) := by
  rw [Funding.uint64, require, if_pos high]
  exact ok rfl

theorem mono {weaker : α → Prop} (safe : Safe post x) (follows : ∀ a, post a → weaker a) :
    Safe weaker x :=
  ⟨safe.1, fun a returned => follows a (safe.2 a returned)⟩

theorem mapError (x : Except String α) : Safe (fun _ => True) (x.mapError BuildError.refused) := by
  cases x with
  | error err => exact error err
  | ok a => exact ok trivial

theorem within (safe : Safe post x) (text : String) :
    Safe post (x.mapError (BuildError.within text)) := by
  cases run : x with
  | ok a => exact ok (safe.2 a run)
  | error failure =>
    cases failure with
    | refused err => exact error _
    | overflow => exact absurd run safe.1

theorem foldlM {step : σ → α → Except BuildError σ} {P : List α → σ → Prop} {items : List α} {s : σ}
    (each : ∀ done item s, P done s → Safe (P (done ++ [item])) (step s item)) (start : P [] s) :
    Safe (P items) (items.foldlM step s) := by
  suffices general : ∀ (todo done : List α) (s : σ), P done s →
      Safe (P (done ++ todo)) (todo.foldlM step s) from general items [] s start
  intro todo
  induction todo with
  | nil =>
    intro done s holds
    exact ok (by simpa using holds)
  | cons item rest ih =>
    intro done s holds
    rw [List.foldlM_cons]
    refine bind (each done item s holds) fun next later => ?_
    simpa using ih (done ++ [item]) next later

end Safe

end Safe

def buildAssetTagTlv (asset_id : Uint256) (units : UInt64) : Bytes :=
  buildTlv ASSET_TAG (asset_id.bytes ++ serUInt64 units)

def tagged (value : Int) (spk : CScript) (asset_id : Uint256) (units : Nat) : CTxOut :=
  { nValue := Int64.ofInt value, scriptPubKey := spk
    vExt := buildAssetTagTlv asset_id (UInt64.ofNat units) }

def native (value : Int) (spk : CScript) : CTxOut :=
  { nValue := Int64.ofInt value, scriptPubKey := spk, vExt := [] }

def nativeValue (outs : List CTxOut) : Int := (outs.map fun o => o.nValue.toInt).sum

def unitsOn (id : Uint256) (out : CTxOut) : Nat :=
  if out.assetID = some id then (out.assetAmount.getD 0).toNat else 0

def unitsIn (id : Uint256) (outs : List CTxOut) : Nat := (outs.map (unitsOn id)).sum

@[simp] theorem nativeValue_nil : nativeValue [] = 0 := rfl

@[simp] theorem nativeValue_cons (o : CTxOut) (outs : List CTxOut) :
    nativeValue (o :: outs) = o.nValue.toInt + nativeValue outs := by
  simp [nativeValue]

@[simp] theorem nativeValue_append (a b : List CTxOut) :
    nativeValue (a ++ b) = nativeValue a + nativeValue b := by
  simp [nativeValue]

@[simp] theorem unitsIn_nil (id : Uint256) : unitsIn id [] = 0 := rfl

@[simp] theorem unitsIn_cons (id : Uint256) (o : CTxOut) (outs : List CTxOut) :
    unitsIn id (o :: outs) = unitsOn id o + unitsIn id outs := by
  simp [unitsIn]

@[simp] theorem unitsIn_append (id : Uint256) (a b : List CTxOut) :
    unitsIn id (a ++ b) = unitsIn id a + unitsIn id b := by
  simp [unitsIn]

variable {spk : CScript} {out : CTxOut} {dust rest value : Int} {outs : List CTxOut}
  {spent : List FundedOutput} {units : Nat} {token_id : Uint256} {held : Uint256 → Nat}

theorem nativeValue_of_all (all : ∀ o ∈ outs, o.nValue.toInt = value) :
    nativeValue outs = outs.length * value := by
  induction outs with
  | nil => simp
  | cons o outs ih =>
    rw [nativeValue_cons, all o List.mem_cons_self,
      ih fun o' member => all o' (List.mem_cons_of_mem _ member), List.length_cons]
    push_cast
    ring

variable {id asset_id : Uint256} {x acc v : Int} {count : Nat}

theorem unitsIn_of_all (all : ∀ o ∈ outs, unitsOn id o = units) : unitsIn id outs = outs.length * units := by
  induction outs with
  | nil => simp
  | cons o outs ih =>
    rw [unitsIn_cons, all o List.mem_cons_self,
      ih fun o' member => all o' (List.mem_cons_of_mem _ member), List.length_cons]
    ring

theorem tagged_read (set : asset_id ≠ 0) :
    (tagged value spk asset_id units).assetID = some asset_id ∧
      (tagged value spk asset_id units).assetAmount = some (UInt64.ofNat units) := by
  have body : parseTyped ASSET_TAG (buildAssetTagTlv asset_id (UInt64.ofNat units)) =
      some (asset_id.bytes ++ serUInt64 (UInt64.ofNat units)) := by
    refine parseTyped_eq_some.mpr ⟨rfl, ?_⟩
    rw [List.length_append, Uint256.bytes_length, serUInt64, leBytes_length]
    decide
  have front : ∀ rest, takeUint256 (asset_id.bytes ++ rest) = some (asset_id, rest) :=
    fun _ => takeUint256_eq_some.mpr rfl
  have last : takeUInt64 (serUInt64 (UInt64.ofNat units)) = some (UInt64.ofNat units, []) :=
    takeUInt64_eq_some.mpr (List.append_nil _).symm
  constructor
  · simp [CTxOut.assetID, tagged, body, front, last, set]
  · simp [CTxOut.assetAmount, tagged, body, front, last, set]

theorem unitsOn_tagged (set : asset_id ≠ 0) (fits : units < 2 ^ 64) (id : Uint256) :
    unitsOn id (tagged value spk asset_id units) = if id = asset_id then units else 0 := by
  obtain ⟨named, amount⟩ : (tagged value spk asset_id units).assetID = some asset_id ∧ _ := tagged_read set
  have whole : (UInt64.ofNat units).toNat = units := by
    rw [UInt64.toNat_ofNat', Nat.mod_eq_of_lt fits]
  rw [unitsOn, named, amount, Option.getD_some, whole]
  by_cases same : id = asset_id
  · simp [same]
  · simp [same, Ne.symm same]

theorem unitsOn_untagged (plain : out.assetID = none) (id : Uint256) : unitsOn id out = 0 := by
  simp [unitsOn, plain]

theorem native_untagged (value : Int) (spk : CScript) : (native value spk).assetID = none := rfl

theorem money_fits (range : MoneyRange x = true) : 0 ≤ x ∧ x ≤ 2100000000000000 := by
  simp only [MoneyRange, Bool.and_eq_true, decide_eq_true_eq] at range
  exact range

theorem product_fits (few : count ≤ 64) (range : MoneyRange dust = true) :
    -2 ^ 63 ≤ count * dust ∧ count * dust < 2 ^ 63 := by
  obtain ⟨low, high⟩ := money_fits range
  have above : (0 : Int) ≤ count * dust := Int.mul_nonneg (Int.natCast_nonneg _) low
  have below : (count : Int) * dust ≤ 64 * 2100000000000000 := Int.mul_le_mul (by omega) high low (by decide)
  omega

theorem value_of_fits (low : 0 ≤ x) (high : x ≤ 2100000000000000) : (Int64.ofInt x).toInt = x :=
  Int64.toInt_ofInt_of_le (by omega) (by omega)

/-- The texts of `AddMoney`, which the two files word differently. -/
structure MoneyTexts where
  addend : String
  total : String

def addMoney (texts : MoneyTexts) (acc v : Int) : Except BuildError Int := do
  need (MoneyRange v) texts.addend
  let acc ← int64 (acc + v)
  need (MoneyRange acc) texts.total
  .ok acc

theorem addMoney_safe {texts : MoneyTexts} (range : MoneyRange acc = true) :
    Safe (fun sum => sum = acc + v ∧ MoneyRange sum = true ∧ MoneyRange v = true) (addMoney texts acc v) := by
  obtain ⟨low, high⟩ := money_fits range
  refine .need_bind fun inside => ?_
  obtain ⟨small, large⟩ := money_fits inside
  refine .int64_bind (by omega) (by omega) (.need_bind fun total => ?_)
  exact .ok ⟨rfl, total, inside⟩

def addMoneyTimes (texts : MoneyTexts) (v : Int) (times : Nat) (acc : Int) : Except BuildError Int :=
  (List.replicate times v).foldlM (fun acc v => addMoney texts acc v) acc

theorem addMoneyTimes_safe {texts : MoneyTexts} {times : Nat} (range : MoneyRange acc = true) :
    Safe (fun sum => sum = acc + times * v ∧ MoneyRange sum = true) (addMoneyTimes texts v times acc) := by
  induction times generalizing acc with
  | zero => exact .ok ⟨by simp, range⟩
  | succ times ih =>
    rw [addMoneyTimes, List.replicate_succ, List.foldlM_cons]
    refine .bind (addMoney_safe range) fun sum ⟨once, inside, _⟩ => ?_
    have rest := ih inside
    rw [addMoneyTimes] at rest
    refine ⟨rest.1, fun total run => ?_⟩
    obtain ⟨rfl, total⟩ := rest.2 total run
    refine ⟨?_, total⟩
    rw [once]
    push_cast
    ring

structure Tally where
  seen : List COutPoint := []
  native_in : Int := 0

def Tally.insert (t : Tally) (o : COutPoint) : Except BuildError Tally := do
  need (o ∉ t.seen) "duplicate input outpoint"
  .ok { t with seen := t.seen ++ [o] }

def Tally.addMoney (texts : MoneyTexts) (t : Tally) (out : CTxOut) : Except BuildError Tally := do
  let native_in ← Funding.addMoney texts t.native_in out.nValue.toInt
  .ok { t with native_in }

def addUnits (text : String) (units : Nat) (amt : UInt64) : Except BuildError Nat := do
  need (¬ amt.toNat > 2 ^ 64 - 1 - units) text
  uint64 (units + amt.toNat)

structure TokenTexts where
  untagged : String
  other : String
  zero : String
  overflow : String

/-- The texts of `AccumulateTokenInputs` and `AccumulateScalarTokenInputs`. -/
def tokenTexts : TokenTexts where
  untagged := "token input is not asset-tagged"
  other := "token input carries a different asset"
  zero := "token input carries zero units"
  overflow := "token unit sum overflow"

variable {t : Tally} {money : MoneyTexts} {texts : TokenTexts} {inputs : List FundedOutput}

def addTokens (texts : TokenTexts) (token_id : Uint256) (out : CTxOut) (units : Nat) :
    Except BuildError Nat := do
  need (out.assetID = some token_id) texts.other
  let amt ← demand (out.assetAmount.filter (· ≠ 0)) (.refused texts.zero)
  addUnits texts.overflow units amt

def checkToken (texts : TokenTexts) (token_id : Uint256) (out : CTxOut) (units : Nat) :
    Except BuildError Nat := do
  need out.hasAssetTLV texts.untagged
  addTokens texts token_id out units

def takeToken (texts : TokenTexts) (money : MoneyTexts) (token_id : Uint256) (s : Nat × Tally)
    (ti : FundedOutput) : Except BuildError (Nat × Tally) := do
  let t ← s.2.insert ti.outpoint
  let units ← checkToken texts token_id ti.txout s.1
  let t ← t.addMoney money ti.txout
  .ok (units, t)

def accumulateTokenInputs (texts : TokenTexts) (money : MoneyTexts) (token_inputs : List FundedOutput)
    (token_id : Uint256) (t : Tally) : Except BuildError (Nat × Tally) :=
  token_inputs.foldlM (takeToken texts money token_id) (0, t)

def takeNative (money : MoneyTexts) (t : Tally) (n : FundedOutput) : Except BuildError Tally := do
  let t ← t.insert n.outpoint
  need (¬ n.txout.hasAssetTLV) "native fee input is asset-tagged"
  let t ← t.addMoney money n.txout
  .ok t

def accumulateNativeInputs (money : MoneyTexts) (native_inputs : List FundedOutput) (t : Tally) :
    Except BuildError Tally := native_inputs.foldlM (takeNative money) t

def outputsOf (spent : List FundedOutput) : List CTxOut := spent.map FundedOutput.txout

def outpointsOf (spent : List FundedOutput) : List COutPoint := spent.map FundedOutput.outpoint

/-- A tally of exactly these inputs, which hold these units of each asset. -/
structure Tally.Covers (t : Tally) (spent : List FundedOutput) (held : Uint256 → Nat) : Prop where
  seen : t.seen = outpointsOf spent
  once : (outpointsOf spent).Nodup
  value : t.native_in = nativeValue (outputsOf spent)
  range : MoneyRange t.native_in = true
  units : ∀ id, unitsIn id (outputsOf spent) = held id

theorem Tally.Covers.nil : Tally.Covers {} [] fun _ => 0 where
  seen := rfl
  once := List.nodup_nil
  value := rfl
  range := by decide
  units _ := rfl

theorem Tally.Covers.take {spent : List FundedOutput} {held : Uint256 → Nat}
    {input : FundedOutput} {α γ : Type} {goal : α → Prop}
    {check : Except BuildError γ} {k : γ → Tally → Except BuildError α} {post : γ → Prop}
    (covers : t.Covers spent held) (checked : Safe post check)
    (rest : ∀ n next, post n → next.Covers (spent ++ [input]) (fun id => held id + unitsOn id input.txout) →
      Safe goal (k n next)) : Safe goal (t.insert input.outpoint >>= fun t => check >>= fun n =>
      t.addMoney money input.txout >>= fun t => k n t) := by
  have inserted : Safe (fun next => next = { t with seen := t.seen ++ [input.outpoint] } ∧
      input.outpoint ∉ t.seen) (t.insert input.outpoint) := .need_bind fun fresh => .ok ⟨rfl, fresh⟩
  refine inserted.bind ?_
  rintro _ ⟨rfl, fresh⟩
  refine checked.bind fun n passed => ?_
  suffices added : Safe (fun next => Tally.Covers next (spent ++ [input])
      fun id => held id + unitsOn id input.txout)
      (Tally.addMoney money { t with seen := t.seen ++ [input.outpoint] } input.txout) from
    added.bind fun next later => rest n next passed later
  refine .bind (addMoney_safe covers.range) fun sum ⟨total, range, _⟩ => .ok ?_
  exact
    { seen := by simp [covers.seen, outpointsOf]
      once := by
        rw [covers.seen] at fresh
        simp only [outpointsOf, List.map_append, List.map_cons, List.map_nil, List.nodup_append,
          List.mem_singleton, forall_eq, List.nodup_cons, List.not_mem_nil, not_false_eq_true,
          List.nodup_nil, and_self, true_and]
        exact ⟨covers.once, fun a member same => fresh (same ▸ member)⟩
      value := by simp [total, covers.value, outputsOf]
      range := range
      units := fun id => by simp [← covers.units id, outputsOf] }

theorem Tally.Covers.congr {held' : Uint256 → Nat}
    (covers : t.Covers spent held) (same : ∀ id, held id = held' id) : t.Covers spent held' :=
  { covers with units := fun id => (covers.units id).trans (same id) }

theorem assetID_ne_zero (named : out.assetID = some id) : id ≠ 0 := by
  simp only [CTxOut.assetID, Option.bind_eq_bind, Option.bind_eq_some_iff] at named
  obtain ⟨_, _, _, _, _, _, named⟩ := named
  split_ifs at named with zero
  cases named
  exact zero

theorem addTokens_safe (fits : units < 2 ^ 64) :
    Safe (fun sum => sum < 2 ^ 64 ∧ token_id ≠ 0 ∧ ∀ id,
        (if id = token_id then sum else 0) = (if id = token_id then units else 0) + unitsOn id out)
      (addTokens texts token_id out units) := by
  refine .need_bind fun named => .demand_bind fun amt carried => ?_
  have amount : out.assetAmount = some amt := (Option.filter_eq_some_iff.mp carried).1
  refine .need_bind fun room => .mono (.uint64 (by omega)) ?_
  rintro _ rfl
  refine ⟨by omega, assetID_ne_zero named, fun id => ?_⟩
  rw [unitsOn, named, amount]
  by_cases same : id = token_id
  · simp [same]
  · simp [same, Ne.symm same]

theorem checkToken_safe (fits : units < 2 ^ 64) :
    Safe (fun sum => sum < 2 ^ 64 ∧ token_id ≠ 0 ∧ ∀ id,
        (if id = token_id then sum else 0) = (if id = token_id then units else 0) + unitsOn id out)
      (checkToken texts token_id out units) := .need_bind fun _ => addTokens_safe fits

theorem accumulateTokenInputs_safe (covers : t.Covers spent held) :
    Safe (fun r => r.2.Covers (spent ++ inputs) (fun id => held id + if id = token_id then r.1 else 0) ∧
        r.1 < 2 ^ 64 ∧ (r.1 ≠ 0 → token_id ≠ 0)) (accumulateTokenInputs texts money inputs token_id t) := by
  refine .foldlM (P := fun done (r : Nat × Tally) => r.2.Covers (spent ++ done)
    (fun id => held id + if id = token_id then r.1 else 0) ∧ r.1 < 2 ^ 64 ∧ (r.1 ≠ 0 → token_id ≠ 0)) ?_ ?_
  · rintro done ti ⟨units, tally⟩ ⟨covered, fits, _⟩
    refine covered.take (checkToken_safe fits) fun sum next ⟨small, set, carried⟩ later => .ok ?_
    refine ⟨?_, small, fun _ => set⟩
    rw [← List.append_assoc]
    refine later.congr fun id => ?_
    rw [carried id, Nat.add_assoc]
  · exact ⟨by simpa using covers, by simp, by simp⟩

theorem assetID_eq_none (untagged : ¬ out.hasAssetTLV = true) : out.assetID = none := by
  simpa [CTxOut.hasAssetTLV] using untagged

theorem untagged_safe {err : String} : Safe (fun _ => out.assetID = none) (need (¬ out.hasAssetTLV) err) :=
  (Safe.need err).mono fun _ untagged => assetID_eq_none untagged

theorem accumulateNativeInputs_safe
    (covers : t.Covers spent held) :
    Safe (fun next => next.Covers (spent ++ inputs) held) (accumulateNativeInputs money inputs t) := by
  refine .foldlM (P := fun done (next : Tally) => next.Covers (spent ++ done) held) ?_
    (by simpa using covers)
  intro done n tally covered
  refine covered.take untagged_safe fun _ next untagged later => .ok ?_
  rw [← List.append_assoc]
  exact later.congr fun id => by rw [unitsOn_untagged untagged, Nat.add_zero]

structure RedemptionPot where
  lot_index : UInt32
  pot : FundedOutput

structure PotLot where
  sink_spk : CScript
  pot_spk : CScript
  pot_leaf : CScript

structure PotPass where
  seen_lots : List UInt32 := []
  lots : List PotLot := []
  vin : List CTxIn := []
  collateral_in : Nat := 0
  tally : Tally := {}

def txIn (outpoint : COutPoint) (stack : List Bytes) : CTxIn :=
  { prevout := outpoint, scriptSig := [], nSequence := SEQUENCE_FINAL, scriptWitness := stack }

def unsigned (inputs : List FundedOutput) : List CTxIn := inputs.map fun i => txIn i.outpoint []

def assemble (vin : List CTxIn) (vout : List CTxOut) : CTransaction :=
  { version := 2, vin, vout, nLockTime := 0 }

structure PotRules where
  lot_count : UInt32
  derive : UInt32 → PotLot
  collateral : CTxOut → Nat → Except BuildError Nat
  control : CScript → Option (Option Bytes)
  money : MoneyTexts

variable {rules : PotRules} {pots : List RedemptionPot}

def PotRules.check (rules : PotRules) (lot : PotLot) (out : CTxOut) (collateral_in : Nat) :
    Except BuildError Nat := do
  need (out.scriptPubKey = lot.pot_spk) "pot UTXO does not match the derived lot pot"
  rules.collateral out collateral_in

def PotRules.spend (rules : PotRules) (s : PotPass) (rp : RedemptionPot) : Except BuildError PotPass := do
  need (¬ rp.lot_index ≥ rules.lot_count) "pot lot_index out of range"
  need (rp.lot_index ∉ s.seen_lots) "duplicate lot_index in redemption"
  let tally ← s.tally.insert rp.pot.outpoint
  let collateral_in ← rules.check (rules.derive rp.lot_index) rp.pot.txout s.collateral_in
  let tally ← tally.addMoney rules.money rp.pot.txout
  let spend ← demand (rules.control (rules.derive rp.lot_index).pot_leaf)
    (.refused "pot builder incomplete")
  let control ← demand spend (.refused "could not reconstruct pot control block")
  .ok { seen_lots := s.seen_lots ++ [rp.lot_index]
        lots := s.lots ++ [rules.derive rp.lot_index]
        vin := s.vin ++ [txIn rp.pot.outpoint [(rules.derive rp.lot_index).pot_leaf, control]]
        collateral_in, tally }

def PotRules.spendAll (rules : PotRules) (pots : List RedemptionPot) : Except BuildError PotPass :=
  pots.foldlM rules.spend {}

/-- A pass over exactly these pots; `held` says which units a pass stands for. -/
structure PotPass.Covers (rules : PotRules) (held : Nat → Uint256 → Nat) (pots : List RedemptionPot)
    (s : PotPass) : Prop where
  lots : s.lots = pots.map fun rp => rules.derive rp.lot_index
  seen : s.seen_lots = pots.map RedemptionPot.lot_index
  distinct : (pots.map RedemptionPot.lot_index).Nodup
  revealed : s.vin.map CTxIn.prevout = outpointsOf (pots.map RedemptionPot.pot)
  leaves : s.vin.map (fun i => i.scriptWitness[0]?) = pots.map fun rp => some (rules.derive rp.lot_index).pot_leaf
  fits : s.collateral_in < 2 ^ 64
  covers : s.tally.Covers (pots.map RedemptionPot.pot) (held s.collateral_in)

theorem PotPass.Covers.first_leaves {held : Nat → Uint256 → Nat}
    {s : PotPass} (covers : PotPass.Covers rules held pots s)
    (more : List CTxIn) : ((s.vin ++ more).take pots.length).map (fun i => i.scriptWitness[0]?) =
      pots.map fun rp => some (rules.derive rp.lot_index).pot_leaf := by
  have length : s.vin.length = pots.length := by simpa using congrArg List.length covers.leaves
  rw [← length, List.take_left' rfl, covers.leaves]

theorem PotRules.spendAll_safe {held : Nat → Uint256 → Nat}
    (none : ∀ id, held 0 id = 0)
    (collateral : ∀ out units, units < 2 ^ 64 → Safe (fun sum => sum < 2 ^ 64 ∧
      ∀ id, held sum id = held units id + unitsOn id out) (rules.collateral out units)) :
    Safe (PotPass.Covers rules held pots) (rules.spendAll pots) := by
  refine .foldlM (P := PotPass.Covers rules held) ?_ ?_
  · intro done rp s before
    refine .need_bind fun _ => .need_bind fun fresh => ?_
    have checked : Safe (fun sum => sum < 2 ^ 64 ∧
        ∀ id, held sum id = held s.collateral_in id + unitsOn id rp.pot.txout)
        (rules.check (rules.derive rp.lot_index) rp.pot.txout s.collateral_in) :=
      .need_bind fun _ => collateral _ _ before.fits
    refine before.covers.take checked fun sum tally ⟨small, carried⟩ later => ?_
    refine .demand_bind fun spend _ => .demand_bind fun control _ => .ok ?_
    rw [before.seen] at fresh
    exact
      { lots := by simp [before.lots]
        seen := by simp [before.seen]
        distinct := by
          rw [List.map_append, List.nodup_append]
          refine ⟨before.distinct, by simp, fun a member b single same => ?_⟩
          simp only [List.map_cons, List.map_nil, List.mem_singleton] at single
          exact fresh (single ▸ same ▸ member)
        revealed := by simp [before.revealed, outpointsOf, txIn]
        leaves := by simp [before.leaves, txIn]
        fits := small
        covers := by
          rw [List.map_append]
          exact later.congr fun id => (carried id).symm }
  · exact ⟨rfl, rfl, by simp, rfl, rfl, by simp, Tally.Covers.nil.congr fun id => (none id).symm⟩

def leftOver (native_in first second : Int) (short dusty : String) : Except BuildError Int := do
  let rest ← int64 (native_in - first)
  let rest ← int64 (rest - second)
  need (¬ rest < 0) short
  need (¬ (rest > 0 ∧ rest < kMinAssetOutputDust)) dusty
  .ok rest

theorem leftOver_safe {native_in first second : Int} {short dusty : String}
    (range : MoneyRange native_in = true) (one : MoneyRange first = true) (two : MoneyRange second = true) :
    Safe (fun rest => native_in = first + second + rest ∧ 0 ≤ rest ∧ rest ≤ 2100000000000000 ∧
        (0 < rest → kMinAssetOutputDust ≤ rest)) (leftOver native_in first second short dusty) := by
  obtain ⟨low, high⟩ := money_fits range
  obtain ⟨low₁, high₁⟩ := money_fits one
  obtain ⟨low₂, high₂⟩ := money_fits two
  refine .int64_bind (by omega) (by omega) (.int64_bind (by omega) (by omega) ?_)
  refine .need_bind fun covered => .need_bind fun clean => .ok ⟨by omega, by omega, by omega, ?_⟩
  intro some_left
  simp only [kMinAssetOutputDust] at clean ⊢
  omega

def leftOverOutput (rest : Int) (spk : CScript) : List CTxOut :=
  if rest > 0 then [native rest spk] else []

theorem leftOverOutput_spec (low : 0 ≤ rest) (high : rest ≤ 2100000000000000)
    (clean : 0 < rest → kMinAssetOutputDust ≤ rest) :
    nativeValue (leftOverOutput rest spk) = rest ∧ (∀ id, unitsIn id (leftOverOutput rest spk) = 0) ∧
      ∀ o ∈ leftOverOutput rest spk, kMinAssetOutputDust ≤ o.nValue.toInt := by
  have value : (native rest spk).nValue.toInt = rest := value_of_fits low high
  by_cases some_left : rest > 0
  · rw [leftOverOutput, if_pos some_left]
    refine ⟨by simp [value], fun id => by simp [unitsOn_untagged (native_untagged rest spk)], ?_⟩
    intro o member
    rw [List.mem_singleton.mp member, value]
    exact clean some_left
  · rw [leftOverOutput, if_neg some_left]
    exact ⟨by rw [nativeValue_nil]; omega, fun _ => rfl, by simp⟩

def retired (dust : Int) (token_id : Uint256) (sinks : List CScript) : List CTxOut :=
  sinks.map fun sink_spk => tagged dust sink_spk token_id 1

def tokenChange (dust : Int) (spk : CScript) (token_id : Uint256) (m k : Nat) : List CTxOut :=
  if m > k then [tagged dust spk token_id (m - k)] else []

structure Carriers (dust : Int) (count : Nat) (units : Uint256 → Nat) (outs : List CTxOut) : Prop where
  value : nativeValue outs = count * dust
  units : ∀ id, unitsIn id outs = units id
  each : ∀ o ∈ outs, o.nValue.toInt = dust

theorem Carriers.append {n n' : Nat} {units units' : Uint256 → Nat} {outs' : List CTxOut}
    (first : Carriers dust n units outs) (second : Carriers dust n' units' outs') :
    Carriers dust (n + n') (fun id => units id + units' id) (outs ++ outs') where
  value := by
    rw [nativeValue_append, first.value, second.value]
    push_cast
    ring
  units id := by rw [unitsIn_append, first.units, second.units]
  each o member := (List.mem_append.mp member).elim (first.each o) (second.each o)

theorem Carriers.none (dust : Int) : Carriers dust 0 (fun _ => 0) [] where
  value := by simp
  units _ := rfl
  each := by simp

section Carriers

variable {dust : Int} {token_id : Uint256} (range : MoneyRange dust = true)

include range

theorem Carriers.one {spk : CScript} {units : Nat} (set : token_id ≠ 0) (fits : units < 2 ^ 64) :
    Carriers dust 1 (fun id => if id = token_id then units else 0) [tagged dust spk token_id units] := by
  obtain ⟨low, high⟩ := money_fits range
  have value : (tagged dust spk token_id units).nValue.toInt = dust := value_of_fits low high
  exact
    { value := by simp [value]
      units := fun id => by simp [unitsOn_tagged set fits]
      each := fun o member => by rw [List.mem_singleton.mp member, value] }

theorem Carriers.retired (set : token_id ≠ 0) (sinks : List CScript) :
    Carriers dust sinks.length (fun id => if id = token_id then sinks.length else 0)
      (retired dust token_id sinks) := by
  induction sinks with
  | nil =>
    have nothing := Carriers.none dust
    exact ⟨nothing.value, fun id => by simp [Funding.retired], nothing.each⟩
  | cons sink sinks ih =>
    have one : Carriers dust 1 _ [tagged dust sink token_id 1] := .one range set (by decide)
    have both := one.append ih
    refine ⟨by rw [List.length_cons, Nat.add_comm]; exact both.value, fun id => ?_, both.each⟩
    refine (both.units id).trans ?_
    by_cases same : id = token_id
    · simp [same, Nat.add_comm]
    · simp [same]

theorem Carriers.tokenChange {m k : Nat} (set : token_id ≠ 0) (enough : ¬ m < k) (fits : m < 2 ^ 64) :
    Carriers dust (if m > k then 1 else 0) (fun id => if id = token_id then m - k else 0)
      (tokenChange dust spk token_id m k) := by
  unfold Funding.tokenChange
  split_ifs with more
  · exact .one range set (by omega)
  · have nothing := Carriers.none dust
    refine ⟨nothing.value, fun id => ?_, nothing.each⟩
    rw [unitsIn_nil]
    split_ifs
    · omega
    · rfl

end Carriers

structure Balanced (spent : List FundedOutput) (fee : Int) (minted : Uint256 → Nat) (tx : CTransaction) : Prop where
  inputs : tx.vin.map CTxIn.prevout = outpointsOf spent
  once : (tx.vin.map CTxIn.prevout).Nodup
  pays : nativeValue (outputsOf spent) - nativeValue tx.vout = fee
  units : ∀ id, unitsIn id tx.vout = unitsIn id (outputsOf spent) + minted id

theorem balanced_of_carriers {units : Uint256 → Nat} {tally : Tally} {fee : Int} {vin : List CTxIn}
    (covers : tally.Covers spent held) (inputs : vin.map CTxIn.prevout = outpointsOf spent)
    (carriers : Carriers dust count units outs) (kept : ∀ id, units id = held id)
    (floor : kMinAssetOutputDust ≤ dust) (swept : tally.native_in = fee + count * dust + rest)
    (low : 0 ≤ rest) (high : rest ≤ 2100000000000000)
    (clean : 0 < rest → kMinAssetOutputDust ≤ rest) :
    Balanced spent fee (fun _ => 0) (assemble vin (outs ++ leftOverOutput rest spk)) ∧
    ∀ o ∈ outs ++ leftOverOutput rest spk, kMinAssetOutputDust ≤ o.nValue.toInt := by
  obtain ⟨value, none_left, above⟩ := @leftOverOutput_spec spk rest low high clean
  constructor
  · exact
      { inputs := inputs
        once := by
          rw [show (assemble vin (outs ++ leftOverOutput rest spk)).vin = vin from rfl, inputs]
          exact covers.once
        pays := by
          rw [← covers.value, swept, assemble, nativeValue_append, carriers.value, value]
          ring
        units := fun id => by
          rw [assemble, unitsIn_append, carriers.units, none_left, covers.units, kept] }
  · intro o member
    rcases List.mem_append.mp member with carrier | last
    · rw [carriers.each o carrier]
      exact floor
    · exact above o last

theorem leftOverOutput_spk : ∀ o ∈ leftOverOutput rest spk, o.scriptPubKey = spk := by
  intro o member
  unfold leftOverOutput at member
  split_ifs at member
  · rw [List.mem_singleton.mp member]
    rfl
  · cases member

theorem tokenChange_spk {m k : Nat} : ∀ o ∈ tokenChange dust spk token_id m k, o.scriptPubKey = spk := by
  intro o member
  unfold tokenChange at member
  split_ifs at member
  · rw [List.mem_singleton.mp member]
    rfl
  · cases member

theorem prevouts_unsigned (inputs : List FundedOutput) :
    (unsigned inputs).map CTxIn.prevout = outpointsOf inputs := by
  simp [unsigned, outpointsOf, txIn]

@[simp] theorem outpointsOf_append (a b : List FundedOutput) :
    outpointsOf (a ++ b) = outpointsOf a ++ outpointsOf b := by
  simp [outpointsOf]

end Funding

end TensorCash
