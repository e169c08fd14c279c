import TensorCash.Assets.Run
import TensorCash.Lib.UndoLog

/-! Each channel of the undo data leads back to the registry before the block, up to fees. -/

namespace TensorCash

open Checked

abbrev RegLogs (start : OrdMap Uint256 AssetRegistryEntry) (pass : RegistryPass) : Prop :=
  UndoLog.Logs RegUndoEntry.asset_id RegUndoEntry.prev start pass.undo.reg_undo pass.view.policies

section Entries

variable {start : OrdMap Uint256 AssetRegistryEntry} {ctx : BlockContext} {tx : CTransaction}
  {coins : List Coin} {spent : List (Uint256 × Int)} {pass pass' : RegistryPass}
  {txs : List (CTransaction × List Coin)} {id : Uint256}

theorem RegLogs.of_same (logs : RegLogs start pass) (same : SamePolicies pass pass') : RegLogs start pass' := by
  unfold RegLogs
  rw [same.policies, same.reg_undo]
  exact logs

theorem RegLogs.register {p : PendingIssuerReg} (logs : RegLogs start pass)
    (registered : registerAsset ctx tx coins spent pass p = .ok pass') : RegLogs start pass' := by
  obtain ⟨new, _, policies, record⟩ := registerAsset_eq_ok registered
  unfold RegLogs
  rw [policies, record]
  exact logs.write rfl rfl

theorem RegLogs.transaction (logs : RegLogs start pass)
    (connected : connectAssetTx ctx pass (tx, coins) = .ok pass') : RegLogs start pass' := by
  obtain ⟨_, _, collected, _, published, _, _, connected⟩ := connectAssetTx_eq_ok connected
  have same := (collected_same collected published).2.1
  exact foldlM_keeps (fun _ _ _ _ kept stepped => RegLogs.register kept stepped) connected
    (logs.of_same same)

theorem RegLogs.settle (logs : RegLogs start pass) (settled : settleSupply txs pass id = .ok pass') :
    RegLogs start pass' := by
  unfold settleSupply at settled
  cases known : pass.view.policies.get? id with
  | none =>
    rw [known] at settled
    cases settled
    exact logs
  | some e =>
    rw [known] at settled
    obtain ⟨_, _, settled⟩ := bind_eq_ok.mp settled
    cases settled
    show UndoLog.Logs RegUndoEntry.asset_id RegUndoEntry.prev start
      (if pass.undo.reg_undo.any fun u => u.asset_id = id then pass.undo
        else { pass.undo with
          reg_undo := pass.undo.reg_undo ++ [RegUndoEntry.mk id (some e)] }).reg_undo
      (pass.view.policies.insert id (e.settle (supplyDelta txs id)))
    split_ifs with recorded
    · simp only [List.any_eq_true, decide_eq_true_eq] at recorded
      exact logs.rewrite recorded
    · exact logs.write (e := ⟨id, some e⟩) rfl known.symm

theorem connectAssets_regLogs {view view' : CCoinsView} {undo undo' : CBlockUndo}
    (fresh : undo.reg_undo = []) (connected : connectAssets ctx txs view undo = .ok (view', undo')) :
    UndoLog.Logs RegUndoEntry.asset_id RegUndoEntry.prev (creditFees undo.fee_undo view).policies
      undo'.reg_undo view'.policies := by
  obtain ⟨pass₁, pass₂, first, second, _, rfl, rfl⟩ := connectAssets_eq_ok connected
  have empty : RegLogs (creditFees undo.fee_undo view).policies
      { view := creditFees undo.fee_undo view, undo } := by
    unfold RegLogs
    rw [fresh]
    exact .nil _ _ _
  have middle : RegLogs (creditFees undo.fee_undo view).policies pass₁ :=
    foldlM_keeps (fun _ _ _ _ kept stepped => RegLogs.transaction kept stepped) first empty
  have final : RegLogs (creditFees undo.fee_undo view).policies pass₂ :=
    foldlM_keeps (fun _ _ _ _ kept stepped => RegLogs.settle kept stepped) second middle
  exact final

end Entries

end TensorCash
