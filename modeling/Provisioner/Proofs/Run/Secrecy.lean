import Provisioner.Proofs.Log.Redactor
import Provisioner.Proofs.Run.Trace
import Provisioner.Proofs.Tool.Muted

/-!
# Secrets in the log of a run

A line that a run logs is one that it would log if the tool printed nothing, a line of the tool
that was masked, or the line with the address of the wallet. The address is taken from the
transcript, which is not masked, and is logged as it is. So a secret gets into the log by this
line or not at all.
-/

namespace Provisioner

/-! ## The same run with a muted tool -/

/-- The circumstances with a tool that prints nothing. -/
def Circumstances.muted (c : Circumstances) : Circumstances := { c with tool := c.tool.muted }

namespace Run

variable {run : Run} {equipment : Equipment} {c : Circumstances}

theorem mem_lines_report {line : String} (h : line ∈ (run.report equipment c).lines) :
    line ∈ (run.report equipment c.muted).lines ∨
      ∃ text, line = (Redactor.ofSecrets run.inputs.secrets).redact text := by
  by_cases hreached : (equipment.prober.probe run.mode run.address c.connect).reached = true
  · rw [report_of_reached hreached] at h
    rw [report_of_reached (c := c.muted) hreached]
    rcases List.mem_append.mp h with h | h
    · exact .inl (List.mem_append.mpr (.inl h))
    · rcases Tool.Attempt.mem_lines_report h with h | h
      · exact .inl (List.mem_append.mpr (.inr h))
      · exact .inr h
  · rw [report_of_unreached hreached] at h
    rw [report_of_unreached (c := c.muted) hreached]
    exact .inl h

theorem message_of_result {failure : RunFailure}
    (h : (run.report equipment c).result = .error failure) :
    ∃ failure', (run.report equipment c.muted).result = .error failure' ∧
      failure'.message = failure.message := by
  by_cases hreached : (equipment.prober.probe run.mode run.address c.connect).reached = true
  · rw [report_of_reached hreached] at h
    rw [report_of_reached (c := c.muted) hreached]
    exact Tool.Attempt.message_of_result h
  · rw [report_of_unreached hreached] at h
    rw [report_of_unreached (c := c.muted) hreached]
    exact ⟨failure, h, rfl⟩

/--
A line of a run is a line of the run with a muted tool, a masked line of the tool, or the line
with the address of the wallet.
-/
theorem mem_appended {succeeds : Nat → Bool} {line : String}
    (h : line ∈ (run.script equipment c).appended succeeds) :
    line ∈ (run.script equipment c.muted).appended succeeds ∨
      (∃ text, line = (Redactor.ofSecrets run.inputs.secrets).redact text) ∨
      ∃ wallet, (run.report equipment c).result = .ok wallet ∧ wallet ≠ "" ∧
        line = walletLine wallet := by
  rw [appended_script, lines] at h
  rw [appended_script, lines]
  rcases List.mem_append.mp h with h | h
  · rcases mem_lines_report h with h | h
    · exact .inl (List.mem_append.mpr (.inl h))
    · exact .inr (.inl h)
  · cases hresult : (run.report equipment c).result with
    | ok wallet =>
      rw [hresult, closingLines] at h
      split at h
      · exact absurd h List.not_mem_nil
      · next hwallet =>
        refine .inr (.inr ⟨wallet, rfl, ?_, List.mem_singleton.mp h⟩)
        rintro rfl
        exact hwallet rfl
    | error failure =>
      obtain ⟨failure', hmuted, hmessage⟩ := message_of_result hresult
      have hclosing : closingLines (.error failure') = closingLines (.error failure) :=
        congrArg (fun message => [s!"Provisioning failed: {message}"]) hmessage
      rw [hresult, ← hclosing] at h
      rw [hmuted]
      exact .inl (List.mem_append.mpr (.inr h))

theorem walletLine_mem_appended {wallet : String} (succeeds : Nat → Bool)
    (h : (run.report equipment c).result = .ok wallet) (hwallet : wallet ≠ "") :
    walletLine wallet ∈ (run.script equipment c).appended succeeds := by
  rw [appended_script, lines, h, closingLines, if_neg]
  · exact List.mem_append.mpr (.inr (List.mem_singleton.mpr rfl))
  · rwa [String.isEmpty_iff]

/-! ## How a secret gets into the log -/

/--
A secret that the run with a muted tool does not log is passed to the store just when the tool
succeeds and the secret stands in the line with the address that the tool printed.
-/
theorem appended_secret_iff (succeeds : Nat → Bool) {secret : String}
    (hmem : secret ∈ run.inputs.secrets) (hstar : '*' ∉ secret.toList)
    (hmuted : ∀ line ∈ (run.script equipment c.muted).appended succeeds,
      Text.occursIn secret.toList line.toList = false) :
    (∃ line ∈ (run.script equipment c).appended succeeds,
      Text.occursIn secret.toList line.toList = true) ↔
      ∃ wallet, (run.report equipment c).result = .ok wallet ∧ wallet ≠ "" ∧
        Text.occursIn secret.toList (walletLine wallet).toList = true := by
  constructor
  · rintro ⟨line, hline, hoccurs⟩
    rcases mem_appended hline with h | ⟨text, rfl⟩ | ⟨wallet, hresult, hwallet, rfl⟩
    · exact absurd hoccurs (by rw [hmuted line h]; decide)
    · have hmasked := Inputs.not_occursIn_redact hmem hstar text
      exact absurd hoccurs (by rw [hmasked]; decide)
    · exact ⟨wallet, hresult, hwallet, hoccurs⟩
  · rintro ⟨wallet, hresult, hwallet, hoccurs⟩
    exact ⟨_, walletLine_mem_appended succeeds hresult hwallet, hoccurs⟩

end Run

/-! ## A tool that prints a key where the address should be -/

/-- The machine answers, and the tool prints the key behind the marker. -/
def Circumstances.keyPrinted : Circumstances :=
  ⟨fun _ => .accepted, ⟨.ok "inventory.ini",
    .ok ⟨[Text.Utf8.encode "WALLET_ADDRESS=sk-ant-abc123\n".toList], [], [], .code 0, 1⟩⟩⟩

namespace Run

theorem key_mem_secrets :
    "sk-ant-abc123" ∈ withKey.inputs.secrets ∧ '*' ∉ "sk-ant-abc123".toList := by
  decide +kernel

theorem key_not_muted :
    ∀ line ∈ (withKey.script .plain Circumstances.keyPrinted.muted).appended fun _ => true,
      Text.occursIn "sk-ant-abc123".toList line.toList = false := by
  decide +kernel

theorem key_appended :
    "Wallet address: sk-ant-abc123" ∈
      (withKey.script .plain .keyPrinted).appended fun _ => true := by
  decide +kernel

theorem appended_secret_iff_keyPrinted :
    "sk-ant-abc123" ∈ withKey.inputs.secrets ∧ '*' ∉ "sk-ant-abc123".toList ∧
    (∀ line ∈ (withKey.script .plain Circumstances.keyPrinted.muted).appended fun _ => true,
      Text.occursIn "sk-ant-abc123".toList line.toList = false) ∧
    ∃ wallet, (withKey.report .plain .keyPrinted).result = .ok wallet ∧ wallet ≠ "" ∧
      Text.occursIn "sk-ant-abc123".toList (walletLine wallet).toList = true := by
  obtain ⟨hmem, hstar⟩ := key_mem_secrets
  have hline : ∃ line ∈ (withKey.script .plain .keyPrinted).appended fun _ => true,
      Text.occursIn "sk-ant-abc123".toList line.toList = true :=
    ⟨_, key_appended, by decide +kernel⟩
  have hwallet := (appended_secret_iff _ hmem hstar key_not_muted).mp hline
  exact ⟨hmem, hstar, key_not_muted, hwallet⟩

/-- The key gets into the log although the run with a muted tool does not log it. -/
theorem appended_keyPrinted :
    "sk-ant-abc123" ∈ withKey.inputs.secrets ∧ '*' ∉ "sk-ant-abc123".toList ∧
    (∀ line ∈ (withKey.script .plain Circumstances.keyPrinted.muted).appended fun _ => true,
      Text.occursIn "sk-ant-abc123".toList line.toList = false) ∧
    ∃ line ∈ (withKey.script .plain .keyPrinted).appended fun _ => true,
      Text.occursIn "sk-ant-abc123".toList line.toList = true := by
  obtain ⟨hmem, hstar⟩ := key_mem_secrets
  exact ⟨hmem, hstar, key_not_muted, _, key_appended, by decide +kernel⟩

end Run

end Provisioner
