import TensorCash.Primitives.Script
import TensorCash.Primitives.Transaction

/-! `assets/asset.cpp` and `assets/asset_parser_v1.cpp`: one type-length-value container for an
output, and a reader for each type. -/

namespace TensorCash

open Codec

def ASSET_TAG : UInt8 := 0x01
def ISSUER_REG : UInt8 := 0x10
def ISSUER_SCALAR : UInt8 := 0x11
def ZK_PARAMS_CHUNK : UInt8 := 0x20
def TFR_ANCHOR : UInt8 := 0x21
def ZK_PROOF_PAYLOAD : UInt8 := 0x22
def ICU_TEXT_CHUNK : UInt8 := 0x30
def ICU_KEYWRAP : UInt8 := 0x31

def MAX_ZK_CHUNKS : Nat := 8
def MAX_ZK_CHUNK_SIZE : Nat := 512
def MAX_VK_PAYLOAD_SIZE : Nat := MAX_ZK_CHUNKS * MAX_ZK_CHUNK_SIZE
def MAX_ZK_PROOFS_PER_TX : Nat := 2
def MAX_ZK_PROOFS_PER_BLOCK : Nat := 400
def GROTH16_PROOF_SIZE : Nat := 192
def GROTH16_FR_SIZE : Nat := 32
def GROTH16_MIN_PUBLIC_INPUTS : Nat := 4
def GROTH16_HDV1_PUBLIC_INPUTS : Nat := 6
def GROTH16_MAX_PUBLIC_INPUTS_SIZE : Nat := 256
def MAX_ICU_PAYLOAD_BYTES : Nat := 102400
def MAX_ICU_KEYWRAP_WRAPPED_KEY_BYTES : Nat := 512
def ICU_KEYWRAP_EXTRA_WRAP_COMMIT : UInt8 := 0x01
def ICU_KEYWRAP_EXTRA_KC_TAG : UInt8 := 0x02
def ICU_KEYWRAP_KC_TAG_SIZE : Nat := 16
def ICU_VERSION_V1 : UInt8 := 1
def ISSUER_REG_FORMAT_V1 : UInt8 := 1
def ISSUER_REG_FORMAT_V2 : UInt8 := 2
def UNLOCK_BUMP_MIN_DEFAULT : UInt64 := 50000000

def takeBytes (count : Nat) (bytes : Bytes) : Option (Bytes × Bytes) :=
  if bytes.length < count then none else some (bytes.take count, bytes.drop count)

def uint256OfBytes (bytes : Bytes) : Uint256 := Fin.ofNat _ (leNat bytes.reverse)

def takeUint256 (bytes : Bytes) : Option (Uint256 × Bytes) :=
  (takeBytes 32 bytes).map fun (h, rest) => (uint256OfBytes h, rest)

def takeUInt8 : Bytes → Option (UInt8 × Bytes)
  | [] => none
  | b :: rest => some (b, rest)

def takeUInt16 (bytes : Bytes) : Option (UInt16 × Bytes) :=
  (readLE 2 bytes).map fun (x, rest) => (UInt16.ofNat x, rest)

def takeUInt32 (bytes : Bytes) : Option (UInt32 × Bytes) :=
  (readLE 4 bytes).map fun (x, rest) => (UInt32.ofNat x, rest)

def takeUInt64 (bytes : Bytes) : Option (UInt64 × Bytes) :=
  (readLE 8 bytes).map fun (x, rest) => (UInt64.ofNat x, rest)

/-- The type and the value of a container whose length is exact. -/
def parseSingleTLV (vext : Bytes) : Option (UInt8 × Bytes) :=
  match vext with
  | type :: rest =>
    (readCompactSize false rest).bind fun (len, value) =>
      if value.length = len then some (type, value) else none
  | [] => none

def parseTyped (type : UInt8) (vext : Bytes) : Option Bytes :=
  (parseSingleTLV vext).bind fun (t, value) => if t = type then some value else none

def utf8Step (c : UInt8) (rest : Bytes) : Option Bytes :=
  let continues (b : UInt8) : Bool := b &&& 0xC0 = 0x80
  if c &&& 0x80 = 0 then some rest
  else if c &&& 0xE0 = 0xC0 then
    match rest with
    | c1 :: rest => if continues c1 ∧ 0xC2 ≤ c then some rest else none
    | _ => none
  else if c &&& 0xF0 = 0xE0 then
    match rest with
    | c1 :: c2 :: rest =>
      if continues c1 ∧ continues c2 ∧ ¬ (c = 0xE0 ∧ c1 < 0xA0) ∧ ¬ (c = 0xED ∧ 0xA0 ≤ c1) then
        some rest
      else none
    | _ => none
  else if c &&& 0xF8 = 0xF0 then
    match rest with
    | c1 :: c2 :: c3 :: rest =>
      if continues c1 ∧ continues c2 ∧ continues c3 ∧ ¬ (c = 0xF0 ∧ c1 < 0x90) ∧
          ¬ (c = 0xF4 ∧ 0x90 ≤ c1) ∧ c ≤ 0xF4 then
        some rest
      else none
    | _ => none
  else none

def isValidUtf8From : Nat → Bytes → Bool
  | _, [] => true
  | 0, _ :: _ => false
  | fuel + 1, c :: rest =>
    match utf8Step c rest with
    | some rest => isValidUtf8From fuel rest
    | none => false

def isValidUtf8 (data : Bytes) : Bool := isValidUtf8From data.length data

structure IcuKeywrap where
  asset_id : Uint256
  ctxt_hash : Uint256
  spk_hash32 : Uint256
  wrapped_key : Bytes
  suite_id : UInt8
  extras_mask : UInt8
  wrap_commit : Option Uint256
  kc_tag : Option Bytes
deriving DecidableEq

def parseKeywrapBody (value : Bytes) : Option IcuKeywrap := do
  if value.length < 32 + 32 + 32 + 1 + 1 then none
  let (asset_id, p) ← takeUint256 value
  let (ctxt_hash, p) ← takeUint256 p
  let (spk_hash32, p) ← takeUint256 p
  let (wrap_len, p) ← readCompactSize false p
  if wrap_len > MAX_ICU_KEYWRAP_WRAPPED_KEY_BYTES then none
  if p.length < wrap_len + 2 then none
  let (wrapped_key, p) ← takeBytes wrap_len p
  if !isValidUtf8 wrapped_key then none
  let (suite_id, p) ← takeUInt8 p
  let (extras_mask, p) ← takeUInt8 p
  if extras_mask &&& ~~~ (ICU_KEYWRAP_EXTRA_WRAP_COMMIT ||| ICU_KEYWRAP_EXTRA_KC_TAG) ≠ 0 then none
  let (wrap_commit, p) ←
    if extras_mask &&& ICU_KEYWRAP_EXTRA_WRAP_COMMIT ≠ 0 then
      (takeUint256 p).map fun (h, p) => (some h, p)
    else some (none, p)
  let (kc_tag, p) ←
    if extras_mask &&& ICU_KEYWRAP_EXTRA_KC_TAG ≠ 0 then
      (takeBytes ICU_KEYWRAP_KC_TAG_SIZE p).map fun (t, p) => (some t, p)
    else some (none, p)
  if p ≠ [] then none
  some { asset_id, ctxt_hash, spk_hash32, wrapped_key, suite_id, extras_mask, wrap_commit, kc_tag }

/-- A keywrap over an earlier one keeps the earlier extras that it lacks. -/
def IcuKeywrap.merge (new : IcuKeywrap) (old : Option IcuKeywrap) : IcuKeywrap :=
  { new with
    wrap_commit := new.wrap_commit <|> old.bind IcuKeywrap.wrap_commit
    kc_tag := new.kc_tag <|> old.bind IcuKeywrap.kc_tag }

def parseIcuKeywrap (vext : Bytes) : Option IcuKeywrap := (parseTyped ICU_KEYWRAP vext).bind parseKeywrapBody

structure AssetTag where
  id : Uint256
  amount : UInt64
  flags : UInt32 := 0
  epoch : Option UInt8 := none
  proposal_hash : Option Uint256 := none
  keywrap : Option IcuKeywrap := none
deriving DecidableEq

/-- The nested records of an asset tag, at least two bytes each. -/
def parseAssetTagRecords : Nat → AssetTag → Bytes → Option AssetTag
  | _, tag, [] => some tag
  | 0, _, _ :: _ => none
  | fuel + 1, tag, sub_type :: rest =>
    if rest = [] then none
    else if sub_type = 0x02 then do
      let (sub_len, rest) ← takeUInt8 rest
      if sub_len ≠ 1 then none
      let (epoch, rest) ← takeUInt8 rest
      parseAssetTagRecords fuel { tag with epoch := some epoch } rest
    else if sub_type = 0x03 then do
      let (sub_len, rest) ← readCompactSize false rest
      let (body, rest) ← takeBytes sub_len rest
      let keywrap ← parseKeywrapBody body
      parseAssetTagRecords fuel { tag with keywrap := some (keywrap.merge tag.keywrap) } rest
    else if sub_type = 0x04 then do
      let (sub_len, rest) ← takeUInt8 rest
      if sub_len ≠ 32 then none
      let (proposal_hash, rest) ← takeUint256 rest
      parseAssetTagRecords fuel { tag with proposal_hash := some proposal_hash } rest
    else none

def parseAssetTag (vext : Bytes) : Option AssetTag := do
  let value ← parseTyped ASSET_TAG vext
  let (id, rest) ← takeUint256 value
  let (amount, rest) ← takeUInt64 rest
  if id = 0 then none
  -- Flags are there unless the next byte announces one of two nested records.
  let has_flags := 4 ≤ rest.length ∧ rest.head? ≠ some 0x02 ∧ rest.head? ≠ some 0x03
  let (flags, rest) ← if has_flags then takeUInt32 rest else some (0, rest)
  parseAssetTagRecords rest.length { id, amount, flags } rest

structure IssuerReg where
  asset_id : Uint256
  policy_bits : UInt32
  allowed_spk_families : UInt16
  format_version : UInt8
  ticker : Bytes
  decimals : UInt8
  unlock_fees_sats : UInt64
  kyc_flags : UInt32
  zk_vk_commitment : Uint256
  max_root_age : UInt32
  tfr_flags : UInt32
  compliance_root_commit : Uint256
  icu_flags : UInt32
  issuance_cap_units : UInt64
  icu_ctxt_commit : Uint256
  icu_plain_commit : Uint256
  kdf_salt : Bytes
  icu_version : UInt8
  icu_visibility : UInt8
  core_policy_commit : Uint256
  policy_epoch : UInt8
  policy_quorum_bps : UInt16
  compliance_delegate_asset_id : Uint256
deriving DecidableEq

def isLetter (c : UInt8) : Bool := 65 ≤ c && c ≤ 90

def isDigit (c : UInt8) : Bool := 48 ≤ c && c ≤ 57

def TICKER_DOT : UInt8 := 46

def isRootTicker (t : Bytes) : Bool :=
  3 ≤ t.length && t.length ≤ 11 && t.head?.any isLetter && t.all fun c => isLetter c || isDigit c

structure ChildTicker where
  root : Bytes
  suffix : Bytes
deriving DecidableEq

def parseChildTicker (t : Bytes) : Option ChildTicker :=
  let root := t.takeWhile (· ≠ TICKER_DOT)
  match t.dropWhile (· ≠ TICKER_DOT) with
  | [] => none
  | _ :: suffix =>
    if suffix.contains TICKER_DOT then none
    else if isRootTicker root && isRootTicker suffix then some ⟨root, suffix⟩
    else none

def isTickerValidForIssuerReg (t : Bytes) : Bool :=
  if t.contains TICKER_DOT then (parseChildTicker t).isSome else isRootTicker t

/-- The registration body; the second format ends in a delegate. -/
def parseIssuerRegV1 (value : Bytes) : Option IssuerReg := do
  if value.length < 254 ∨ value.length > 277 + 32 then none
  let (asset_id, p) ← takeUint256 value
  let (policy_bits, p) ← takeUInt32 p
  let (allowed_spk_families, p) ← takeUInt16 p
  let (format_version, p) ← takeUInt8 p
  if format_version ≠ ISSUER_REG_FORMAT_V1 ∧ format_version ≠ ISSUER_REG_FORMAT_V2 then none
  let has_delegate := format_version = ISSUER_REG_FORMAT_V2
  let (ticker_len, p) ← takeUInt8 p
  if ticker_len > 23 then none
  let (ticker, p) ← takeBytes ticker_len.toNat p
  if ticker ≠ [] ∧ !isTickerValidForIssuerReg ticker then none
  let (decimals, p) ← takeUInt8 p
  if decimals ≠ 0xFF ∧ decimals > 18 then none
  let (unlock_fees_sats, p) ← takeUInt64 p
  if p.length ≠ 205 + (if has_delegate then 32 else 0) then none
  let (kyc_flags, p) ← takeUInt32 p
  let (zk_vk_commitment, p) ← takeUint256 p
  let (max_root_age, p) ← takeUInt32 p
  let (tfr_flags, p) ← takeUInt32 p
  let (compliance_root_commit, p) ← takeUint256 p
  let (icu_flags, p) ← takeUInt32 p
  let (issuance_cap_units, p) ← takeUInt64 p
  let (icu_ctxt_commit, p) ← takeUint256 p
  let (icu_plain_commit, p) ← takeUint256 p
  let (kdf_salt, p) ← takeBytes 16 p
  let (icu_version, p) ← takeUInt8 p
  if icu_version ≠ 0 ∧ icu_version ≠ ICU_VERSION_V1 then none
  let (icu_visibility, p) ← takeUInt8 p
  if icu_visibility > 1 then none
  let (core_policy_commit, p) ← takeUint256 p
  let (policy_epoch, p) ← takeUInt8 p
  let (policy_quorum_bps, p) ← takeUInt16 p
  if policy_quorum_bps > 10000 then none
  let (compliance_delegate_asset_id, p) ← if has_delegate then takeUint256 p else some (0, p)
  if has_delegate ∧ compliance_delegate_asset_id = 0 then none
  if p ≠ [] then none
  some {
    asset_id, policy_bits, allowed_spk_families, format_version, ticker, decimals
    unlock_fees_sats, kyc_flags, zk_vk_commitment, max_root_age, tfr_flags
    compliance_root_commit, icu_flags, issuance_cap_units, icu_ctxt_commit, icu_plain_commit
    kdf_salt, icu_version, icu_visibility, core_policy_commit, policy_epoch, policy_quorum_bps
    compliance_delegate_asset_id }

def parseIssuerReg (vext : Bytes) : Option IssuerReg := (parseTyped ISSUER_REG vext).bind parseIssuerRegV1

structure ZkParamsChunk where
  asset_id : Uint256
  vk_hash : Uint256
  chunk_index : UInt16
  chunk_count : UInt16
  data : Bytes
deriving DecidableEq

def parseZkParamsChunk (vext : Bytes) : Option ZkParamsChunk := do
  let value ← parseTyped ZK_PARAMS_CHUNK vext
  let (asset_id, p) ← takeUint256 value
  let (vk_hash, p) ← takeUint256 p
  let (chunk_index, p) ← takeUInt16 p
  let (chunk_count, data) ← takeUInt16 p
  if chunk_count = 0 ∨ MAX_ZK_CHUNKS < chunk_count.toNat ∨ chunk_count ≤ chunk_index ∨
      MAX_ZK_CHUNK_SIZE < data.length then none
  some { asset_id, vk_hash, chunk_index, chunk_count, data }

structure TfrAnchor where
  asset_id : Uint256
  tfr_commit : Uint256
  keyset_id : UInt32 := 0
  locator : Bytes := []
deriving DecidableEq

def parseTfrAnchor (vext : Bytes) : Option TfrAnchor := do
  let value ← parseTyped TFR_ANCHOR vext
  let (asset_id, p) ← takeUint256 value
  let (tfr_commit, p) ← takeUint256 p
  if p = [] then some { asset_id, tfr_commit }
  else
    let (keyset_id, locator) ← takeUInt32 p
    some { asset_id, tfr_commit, keyset_id, locator }

structure ZkProofPayload where
  asset_id : Uint256
  proof : Bytes
  public_inputs : Bytes
deriving DecidableEq

def parseZkProofPayload (vext : Bytes) : Option ZkProofPayload := do
  let value ← parseTyped ZK_PROOF_PAYLOAD vext
  if value.length < 36 then none
  let (asset_id, p) ← takeUint256 value
  let (proof_len, p) ← readCompactSize false p
  if proof_len > GROTH16_PROOF_SIZE * 2 then none
  let (proof, p) ← takeBytes proof_len p
  let (inputs_len, p) ← readCompactSize false p
  if inputs_len > GROTH16_MAX_PUBLIC_INPUTS_SIZE ∨ p.length ≠ inputs_len then none
  some { asset_id, proof, public_inputs := p }

structure IcuChunkMetadata where
  version : UInt8
  compression : UInt8
  encryption_mode : UInt8
  witness_hash : Option Uint256
deriving DecidableEq

structure IcuTextChunk where
  payload : Bytes
  metadata : Option IcuChunkMetadata
deriving DecidableEq

/-- The trailer: a magic word, four bytes and a hash in reverse byte order. -/
def stripIcuChunkMetadata (payload : Bytes) : Option (Bytes × IcuChunkMetadata) :=
  if payload.length < 40 then none
  else
    match payload.drop (payload.length - 40) with
    | 73 :: 67 :: 85 :: 77 :: version :: compression :: encryption_mode :: flags :: witness =>
      if version ≠ 1 then none
      else some (payload.take (payload.length - 40),
        { version, compression, encryption_mode
          witness_hash :=
            if flags &&& 0x01 ≠ 0 then some (uint256OfBytes witness.reverse) else none })
    | _ => none

def parseIcuTextChunk (vext : Bytes) : Option IcuTextChunk := do
  let value ← parseTyped ICU_TEXT_CHUNK vext
  if value.length > MAX_ICU_PAYLOAD_BYTES then none
  match stripIcuChunkMetadata value with
  | some (payload, metadata) => some { payload, metadata := some metadata }
  | none => some { payload := value, metadata := none }

structure IssuerScalar where
  underlying_asset_id : Uint256
  feed_id : UInt32
  scalar_epoch : UInt64
  scalar_format_id : UInt16
  scalar : Uint256
deriving DecidableEq

def parseIssuerScalar (vext : Bytes) : Option IssuerScalar := do
  let value ← parseTyped ISSUER_SCALAR vext
  if value.length ≠ 78 then none
  let (underlying_asset_id, p) ← takeUint256 value
  let (feed_id, p) ← takeUInt32 p
  let (scalar_epoch, p) ← takeUInt64 p
  let (scalar_format_id, p) ← takeUInt16 p
  let (scalar, _) ← takeUint256 p
  some { underlying_asset_id, feed_id, scalar_epoch, scalar_format_id, scalar }

def ICU_ACCEPTANCE_TLV_TYPE : UInt8 := 0x40
def ICU_ACCEPTANCE_RECORD_VERSION : UInt8 := 1

/-- A holder's statement about the issuer's document. -/
structure IcuAcceptanceRecord where
  version : UInt8
  mode : UInt8
  flags : UInt16
  asset_id : Uint256
  icu_plain_commit : Uint256
  holder_prevout_txid : Uint256
  holder_prevout_vout : UInt32
  holder_spk_hash : Uint256
  accepted_units : UInt64
  sig_scheme : UInt8
  body_refs : List Uint256
  sig : Bytes
deriving DecidableEq

def icuAcceptSigLength (sig_scheme : UInt8) : Option Nat :=
  if sig_scheme = 0 then some 0
  else if sig_scheme = 1 then some 64
  else if sig_scheme = 2 then some 32
  else none

def validateIcuAcceptanceRecord (r : IcuAcceptanceRecord) : Bool :=
  r.version = ICU_ACCEPTANCE_RECORD_VERSION && (r.mode = 1 || r.mode = 2) &&
    r.flags = 0 && r.asset_id ≠ 0 && r.icu_plain_commit ≠ 0 &&
    r.holder_prevout_txid ≠ 0 && r.holder_spk_hash ≠ 0 && r.accepted_units ≠ 0 &&
    decide (r.body_refs.Pairwise (· < ·)) && !(r.mode = 2 && r.body_refs ≠ []) &&
    -- An acknowledgement is signed; a return is attributed by the spend and carries no signature.
    !(r.mode = 1 && r.sig_scheme = 0) && !(r.mode = 2 && r.sig_scheme ≠ 0) &&
    icuAcceptSigLength r.sig_scheme = some r.sig.length

def takeUint256s : Nat → Bytes → Option (List Uint256 × Bytes)
  | 0, bytes => some ([], bytes)
  | count + 1, bytes => do
    let (digest, bytes) ← takeUint256 bytes
    let (digests, bytes) ← takeUint256s count bytes
    some (digest :: digests, bytes)

def parseIcuAcceptancePayload (payload : Bytes) : Option IcuAcceptanceRecord := do
  let (version, p) ← takeUInt8 payload
  if version ≠ ICU_ACCEPTANCE_RECORD_VERSION then none
  let (mode, p) ← takeUInt8 p
  let (flags, p) ← takeUInt16 p
  let (asset_id, p) ← takeUint256 p
  let (icu_plain_commit, p) ← takeUint256 p
  let (holder_prevout_txid, p) ← takeUint256 p
  let (holder_prevout_vout, p) ← takeUInt32 p
  let (holder_spk_hash, p) ← takeUint256 p
  let (accepted_units, p) ← takeUInt64 p
  let (sig_scheme, p) ← takeUInt8 p
  let (nrefs, p) ← readCompactSize false p
  if nrefs > 4096 then none
  let (body_refs, p) ← takeUint256s nrefs p
  let (siglen, p) ← readCompactSize false p
  if siglen > 65536 then none
  let (sig, p) ← takeBytes siglen p
  if p ≠ [] then none
  let record : IcuAcceptanceRecord :=
    { version, mode, flags, asset_id, icu_plain_commit, holder_prevout_txid, holder_prevout_vout
      holder_spk_hash, accepted_units, sig_scheme, body_refs, sig }
  if validateIcuAcceptanceRecord record then some record else none

def parseIcuAcceptanceTLV (vext : Bytes) : Option IcuAcceptanceRecord :=
  (parseTyped ICU_ACCEPTANCE_TLV_TYPE vext).bind parseIcuAcceptancePayload

end TensorCash
