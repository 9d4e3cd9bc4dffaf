import Provisioner.Proofs.Log.Decoding
import Provisioner.Proofs.Log.Transcript
import Provisioner.Proofs.Tool.Delivery
import Provisioner.Proofs.Tool.Outcome

/-!
# The wallet's address that a run reports

What is received from the tool are lines of its two streams, and these hold no line feeds, however
the streams were read. So the address is the one in the line that the tool printed, although it is
taken from what is left of all its output.
-/

namespace Provisioner.Tool.Execution

open Marker Text

variable (e : Execution)

theorem feed_not_mem_of_mem_linesOf {line : String} {bytes : List UInt8}
    (h : line ∈ Splitter.linesOf bytes) : '\n' ∉ line.toList := by
  rw [Splitter.linesOf_eq_cutLines] at h
  obtain ⟨chars, hchars, rfl⟩ := List.mem_map.mp h
  rw [String.toList_ofList]
  exact not_mem_of_mem_cutLines hchars

theorem feed_not_mem_received {line : String} (h : line ∈ received e.events) :
    '\n' ∉ line.toList := by
  have hshuffle := (Streams.delivered_run e.out e.err e.turns).shuffled
  rcases hshuffle.mem_or_mem h with hout | herr
  · exact feed_not_mem_of_mem_linesOf hout
  · exact feed_not_mem_of_mem_linesOf herr

/-- **The address that a run reports is the one in the first line with the marker**, if that line is
near enough to the end. -/
theorem wallet_eq_extract_line {before after : List String} {line : String}
    (hreceived : received e.events = before ++ line :: after)
    (hbefore : ∀ earlier ∈ before, ¬piece walletAddress <:+: earlier.toList)
    (hmem : piece walletAddress <:+: line.toList)
    (hnear : (unlines (line :: after)).utf8ByteSize ≤ Transcript.floor) :
    e.wallet = extract walletAddress line := by
  have hline : '\n' ∉ line.toList := e.feed_not_mem_received (by simp [hreceived])
  rw [wallet, hreceived]
  exact Transcript.extract_ofLines Transcript.feed_not_mem_walletAddress hbefore hline hmem hnear

/-- A run in which no line with the marker is received reports no address. -/
theorem wallet_eq_empty
    (h : ∀ line ∈ received e.events, ¬piece walletAddress <:+: line.toList) : e.wallet = "" :=
  Transcript.extract_ofLines_eq_empty Transcript.feed_not_mem_walletAddress h

end Provisioner.Tool.Execution
