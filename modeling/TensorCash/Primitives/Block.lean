import TensorCash.Primitives.Script
import TensorCash.Primitives.Transaction

/-! Block headers, the proof-of-work blob that travels with a block, and whole blocks. -/

namespace TensorCash

/-- The header; `flags` is serialized with it but not hashed. -/
structure CBlockHeader where
  nVersion : UInt32 := 0
  hashPrevBlock : Uint256 := 0
  hashMerkleRoot : Uint256 := 0
  nTime : UInt32 := 0
  nBits : UInt32 := 0
  nNonce : UInt32 := 0
  nAdjBits : UInt32 := 0
  hashPoW : Uint256 := 0
  flags : UInt8 := 0
deriving DecidableEq

def CBlockHeader.serializeShort (h : CBlockHeader) : Bytes :=
  List.flatten [serUInt32 h.nVersion, h.hashPrevBlock.bytes, h.hashMerkleRoot.bytes, serUInt32 h.nTime,
    serUInt32 h.nAdjBits, serUInt32 h.nNonce]

def CBlockHeader.getHash (c : Crypto) (h : CBlockHeader) : Uint256 :=
  c.hash (h.serializeShort ++ (serUInt32 h.nBits ++ h.hashPoW.bytes))

def CBlockHeader.getShortHash (c : Crypto) (h : CBlockHeader) : Uint256 := c.hash h.serializeShort

/-- The proof of work. Strings are byte strings and floats are their bit patterns. -/
structure CProofBlob where
  version : UInt8 := 0
  tick : UInt64 := 0
  timestamp : UInt64 := 0
  target : Bytes := []
  vdf : Bytes := []
  hash : Bytes := []
  block_hash : Bytes := []
  header_prefix : Bytes := []
  is_solution : Bool := false
  model_identifier : Bytes := []
  compute_precision : Bytes := []
  ipfs_cid : Bytes := []
  extra_flags : Bytes := []
  temperature : UInt32 := 0
  top_p : UInt32 := 0
  top_k : UInt32 := 0
  repetition_penalty : UInt32 := 0
  chosen_tokens : List UInt32 := []
  chosen_probs : List UInt32 := []
  sampling_u : List UInt32 := []
  softmax_normalizers : List UInt32 := []
  prompt_tokens : List UInt32 := []
  pad_mask : Bytes := []
  topk_logits : List (List UInt32) := []
  topk_indices : List (List UInt32) := []
  logsumexp_stats : List (List UInt32) := []
deriving DecidableEq

/-- A function of a proof blob, on its fields put together again. -/
def CProofBlob.evalOn {α : Type} (f : CProofBlob → α) : CProofBlob → α
  | ⟨version, tick, timestamp, target, vdf, hash, block_hash, header_prefix, is_solution,
      model_identifier, compute_precision, ipfs_cid, extra_flags, temperature, top_p, top_k,
      repetition_penalty, chosen_tokens, chosen_probs, sampling_u, softmax_normalizers,
      prompt_tokens, pad_mask, topk_logits, topk_indices, logsumexp_stats⟩ =>
    f ⟨version, tick, timestamp, target, vdf, hash, block_hash, header_prefix, is_solution,
      model_identifier, compute_precision, ipfs_cid, extra_flags, temperature, top_p, top_k,
      repetition_penalty, chosen_tokens, chosen_probs, sampling_u, softmax_normalizers,
      prompt_tokens, pad_mask, topk_logits, topk_indices, logsumexp_stats⟩

/-- The model that worked on the block: null unless its name is `name@commit`. -/
def CProofBlob.getModelHash (c : Crypto) (pow : CProofBlob) : Uint256 :=
  if pow.model_identifier.contains 64 then c.sha256 pow.model_identifier else 0

structure CBlock extends CBlockHeader where
  vtx : List CTransaction := []
  pow : CProofBlob := {}
  cumulative_tick : UInt64 := 0
deriving DecidableEq

end TensorCash
