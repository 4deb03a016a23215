import VirtioGpu.Allocation.Accounts

/-!
# The handler thread must not block

The last reference to a `DeviceSpecificAllocation` detaches its resource from the context of the
device, with a request that blocks until it is answered.  Answers are the business of the handler
thread.  If the handler thread releases the last reference itself, when it drops the batch of a
request that has completed, it waits for itself until the request times out.

Whether that happens depends on when the handles are closed.  As long as a handle is open, it is a
reference, and a batch does not have the last one.  `close_allocation` does not look whether the
allocation is still in use.

* `handler_not_blocked` : the handler thread never blocks if the last handle is closed only when no
  other reference is left.
* `handler_blocks` : a handle that is closed while the device works on a submission.
-/

namespace VirtioGpu

namespace InFlight

variable {α β : Type}

/-- The last handle of a `DeviceSpecificAllocation` is closed only when no call, private data,
request or batch has a reference to it any more.  Devices stay: `Device::drop` makes blocking
requests of its own. -/
def ClosesUnused (s : InFlight α β) : InFlightAct α β → Prop
  | .close d => s.handles d = 1 → s.refs d = 1
  | .dropDevice _ => False
  | _ => True

instance (s : InFlight α β) (a : InFlightAct α β) : Decidable (ClosesUnused s a) := by
  cases a <;> unfold ClosesUnused <;> infer_instance

/-- The handler thread has made no blocking request. -/
def HandlerFree (s : InFlight α β) : Prop := ∀ x ∈ s.detaches, x.1 = false

/-- What is in use has an open handle. -/
structure OpenInv (s : InFlight α β) : Prop where
  refs : RefsInv s
  openHandle : ∀ d ∈ s.pinned, 0 < s.handles d
  free : HandlerFree s

theorem mem_iff_countP_pos {l : List ℕ} {d : ℕ} : d ∈ l ↔ 0 < l.countP (· = d) := by
  simp [List.countP_pos_iff]

variable [DecidableEq α] [DecidableEq β] {alloc : ℕ → α} {device : ℕ → β} {s t : InFlight α β}

theorem openInv_step {a : InFlightAct α β} (hinv : OpenInv s) (ha : ClosesUnused s a)
    (h : step alloc device s a = .next t) : OpenInv t := by
  obtain ⟨k, ⟨hcounters, hmoves⟩, -, hclose⟩ := change_of_step h
  refine ⟨refsInv_step hinv.refs h, fun d hd => ?_, fun x hx => ?_⟩
  · have hpinned := hmoves.pinned fun e => decide (e = d)
    have hhandles := hcounters.handles d
    have hpos := mem_iff_countP_pos.1 hd
    have hrefs := hinv.refs d
    -- What is held now was held before, or cloned from an open handle.
    have hopen : 0 < s.handles d := by
      by_cases hs : 0 < s.pinned.countP (· = d)
      · exact hinv.openHandle d (mem_iff_countP_pos.2 hs)
      · exact hcounters.cloned d (mem_iff_countP_pos.2 (by omega))
    by_cases htaken : 0 < k.taken.countP (· = d)
    · -- A handle is closed, but not the last one.
      cases k with
      | takeHandle e =>
        obtain rfl : d = e := by simpa using mem_iff_countP_pos.2 htaken
        obtain rfl := hclose d rfl
        simp only [Charge.taken, Charge.opened, Charge.cloned, List.countP_cons, List.countP_nil,
          decide_true, if_true] at hhandles hpinned
        have hlast : s.handles d = 1 → s.refs d = 1 := ha
        omega
      | none | gone | markBusy e | markFree e | clone e | release b e | openHandle e =>
        simp at htaken
    · omega
  · rcases hcounters.detaches with hsame | ⟨onHandler, d, rfl, hlast, hadd⟩
    · rw [hsame] at hx
      exact hinv.free x hx
    · rw [hadd, List.mem_append, List.mem_singleton] at hx
      rcases hx with hx | rfl
      · exact hinv.free x hx
      · -- A reference of the handler thread is one beside those of the handles.
        cases honHandler : onHandler with
        | false => rfl
        | true =>
          have hheld := hmoves.handler d (by rw [honHandler])
          have hpos := mem_iff_countP_pos.1 hheld
          have hopen := hinv.openHandle d hheld
          have hrefs := hinv.refs d
          omega

end InFlight

/-- **When the handler thread does not block.**  In every run in which the last handle of a
`DeviceSpecificAllocation` is closed only when nothing else refers to it, the handler thread makes
no blocking request: it never releases the last reference of an allocation and a device that are
still there. -/
theorem handler_not_blocked {α β : Type} [DecidableEq α] [DecidableEq β] (alloc : ℕ → α)
    (device : ℕ → β) (as : List (InFlightAct α β))
    (has : (inFlightMachine alloc device).Meets InFlight.ClosesUnused .init as) :
    (inFlightMachine alloc device).Always InFlight.HandlerFree .init as :=
  Machine.always_of_meets (I := InFlight.OpenInv) (fun _ _ _ => InFlight.openInv_step)
    (fun _ h => h.free) ⟨fun _ => rfl, by simp [InFlight.pinned, InFlight.waiting, InFlight.init],
      by simp [InFlight.HandlerFree, InFlight.init]⟩ has

/-- The handle is closed only after the request has completed. -/
theorem handler_not_blocked_close_after :
    (∃ s, (inFlightMachine (fun _ => ()) fun _ => ()).run .init
      (renderOnce ++ submitOnce ++ completeOnce ++ [.close 0, .call 2 false]) = some s ∧
        s.detaches = [(false, 0)]) ∧
    (inFlightMachine (fun _ => ()) fun _ => ()).Always InFlight.HandlerFree .init
      (renderOnce ++ submitOnce ++ completeOnce ++ [.close 0, .call 2 false]) :=
  ⟨⟨_, rfl, rfl⟩, handler_not_blocked _ _ _ (by decide)⟩

/-- **The handler thread waits for itself.**  The handle is closed between the submission and its
completion, so the handler thread releases the last reference and makes the blocking request to
detach the resource. -/
theorem handler_blocks :
    ∃ s, (inFlightMachine (fun _ => ()) fun _ => ()).run .init
      (renderOnce ++ submitOnce ++ [.close 0, .call 2 false] ++ completeOnce) = some s ∧
        s.detaches = [(true, 0)] ∧ s.allocationGone () = false ∧ s.deviceGone () = false :=
  ⟨_, rfl, rfl, rfl, rfl⟩

end VirtioGpu
