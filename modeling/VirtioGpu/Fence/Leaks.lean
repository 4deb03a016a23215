import VirtioGpu.Device.Present
import VirtioGpu.Queue.Operations
import Mathlib.Data.List.Perm.Subperm

/-!
# Fences that nobody will signal

A fence leaves `unsignaled` when the device has answered the request it was drawn for.  So each of
them should belong to a request that is in a channel or with the device, or to a command in a DMA
buffer that is still to be submitted.  But fences are drawn early: by the header of a request, and
by each command that `render` and `present` encode.  If the call then returns an error, nobody gives
them back.  A submission that waits for such a fence waits for ever.

All conditions here are about what a call is given: the sizes of a request and the memory there is,
the headers of a command buffer, the allocations of a copy and the length of the DMA buffer.

* `FenceCall.run` : an operation of `GpuChannel`, `render` or `present`, with the fences it leaves
  to a request or a DMA buffer.
* `FenceCall.Clean` : the call succeeds, or comes to no fence.
* `fences_kept_iff` : which failing calls leave `unsignaled` as it was, and that in a run every
  fence in it belongs to somebody exactly if all calls are clean.
* `fence_leaked` : three calls that leave a fence behind.
-/

namespace VirtioGpu

/-! ### The fences of a DMA buffer -/

namespace DmaWriter

/-- The second writer has more commands than the first, each with a fence of its own. -/
def Extends (w w' : DmaWriter) : Prop :=
  ∃ l, w'.fence.unsignaled = w.fence.unsignaled ++ l ∧
    w'.commands.length = w.commands.length + l.length

variable {w w' w'' : DmaWriter}

theorem Extends.refl (w : DmaWriter) : w.Extends w := ⟨[], by simp, rfl⟩

theorem Extends.trans (h : w.Extends w') (h' : w'.Extends w'') : w.Extends w'' := by
  obtain ⟨l, hl, hlen⟩ := h
  obtain ⟨l', hl', hlen'⟩ := h'
  refine ⟨l ++ l', by rw [hl', hl, List.append_assoc], ?_⟩
  rw [hlen', hlen, List.length_append, Nat.add_assoc]

theorem extends_encodeSteps (steps : List PresentStep) : w.Extends (encodeSteps steps w).2 := by
  refine encodeSteps_invariant (.refl w) fun e w₁ w₂ hw hpush => hw.trans ?_
  have hwire : (e.wire w₁.fence).2 = w₁.fence.issue.2 := by
    unfold Element.wire
    cases e.work <;> rfl
  unfold push at hpush
  split_ifs at hpush
  cases hpush
  exact ⟨[w₁.fence.nextFence], congrArg _ hwire, by simp⟩

end DmaWriter

/-! ### `render` -/

namespace RenderEnv

variable {env : RenderEnv} {b : UserBuffer} {st : RenderState} {t : FenceTracker}

/-- The tracker as the loop of `render` leaves it, also where a round stops. -/
def lastFence (env : RenderEnv) (b : UserBuffer) : ℕ → RenderState → FenceTracker
  | 0, st => st.writer.fence
  | fuel + 1, st =>
    if more b st then match (env.step b st).result with
      | .ok st' => lastFence env b fuel st'
      | .error stop => stop.tracker st.writer.fence
    else st.writer.fence

/-- The tracker as `render` leaves it. -/
def fenceAfter (env : RenderEnv) (t : FenceTracker) (b : UserBuffer) : FenceTracker :=
  if env.allocations.any Option.isNone then t else env.lastFence b b.len (env.start t)

/-- `render` comes to no command that draws a fence: a handle is not valid, or none of the commands
that the headers lead to is of that kind. -/
def DrawsNone (env : RenderEnv) (b : UserBuffer) : Prop :=
  env.allocations.any Option.isNone = true ∨
    ∀ p ∈ env.visits b b.len 0 0, ∀ hdr ∈ b.headerAt p.1, ¬ env.Draws p.2 hdr

theorem lastFence_of_ok {fuel : ℕ} {st' : RenderState}
    (h : (Reads.whileLoop (more b) (env.step b) fuel st).result = .ok st') :
    env.lastFence b fuel st = st'.writer.fence := by
  induction fuel generalizing st with
  | zero =>
    cases h
    rfl
  | succ fuel ih =>
    unfold Reads.whileLoop at h
    unfold lastFence
    split_ifs at h ⊢
    · obtain ⟨st₁, hstep, h⟩ := Reads.result_bind_eq_ok.1 h
      rw [hstep]
      exact ih h
    · cases h
      rfl

/-- If `render` succeeds, the tracker is the one of the DMA buffer it leaves. -/
theorem fenceAfter_of_render {p : CommandDmaPrivate} {w : DmaWriter}
    (h : (env.render t b).result = .ok (p, w)) : env.fenceAfter t b = w.fence := by
  unfold render at h
  unfold fenceAfter
  by_cases halloc : env.allocations.any Option.isNone = true
  · rw [if_pos halloc] at h
    cases h
  rw [if_neg halloc] at h ⊢
  obtain ⟨st, hloop, h⟩ := Reads.result_bind_eq_ok.1 h
  rw [lastFence_of_ok (Reads.result_mapErr_eq_ok.1 hloop)]
  split_ifs at h <;> cases h
  rfl

theorem lastFence_extends (fuel : ℕ) (hroom : RoomInv st) (hdma : st.writer.dma = env.dma) :
    ∃ l, (env.lastFence b fuel st).unsignaled = st.writer.fence.unsignaled ++ l := by
  induction fuel generalizing st with
  | zero => exact ⟨[], by simp [lastFence]⟩
  | succ fuel ih =>
    unfold lastFence
    split_ifs with hmore
    · have hcase := env.stepCase b hroom hdma
      generalize hres : (env.step b st).result = r at hcase ⊢
      cases hcase with
      | next hdr st' l hhdr haccepts hoff hused hdma' hfence =>
        obtain ⟨l', hl'⟩ := ih (room_of_round hroom hdma ⟨hmore, hres⟩).1 (hdma'.trans hdma)
        exact ⟨l ++ l', by rw [← List.append_assoc, ← hfence]; exact hl'⟩
      | stop stop l h hfence => exact ⟨l, hfence⟩
    · exact ⟨[], by simp⟩

theorem length_append_eq_iff {l l' l₁ l₂ : List ℕ} (h : l₁ = l ++ l') (h' : ∃ k, l₂ = l₁ ++ k) :
    l₂.length = l.length ↔ l' = [] ∧ l₂.length = l₁.length := by
  obtain ⟨k, rfl⟩ := h'
  subst h
  simp only [List.length_append, ← List.length_eq_zero_iff]
  omega

/-- **The fences that the loop draws**: none, exactly if there is no command for it to draw one. -/
theorem lastFence_length_iff (env : RenderEnv) (b : UserBuffer) (t : FenceTracker) :
    (env.lastFence b b.len (env.start t)).unsignaled.length = t.unsignaled.length ↔
      ∀ p ∈ env.visits b b.len 0 0, ∀ hdr ∈ b.headerAt p.1, ¬ env.Draws p.2 hdr := by
  refine forall_visits_iff (P := fun fuel st => (env.lastFence b fuel st).unsignaled.length =
    st.writer.fence.unsignaled.length) (fun st => rfl) (fun fuel st hmore => ?_)
    (fun fuel st st' hmore hroom hdma hres => ?_) (fun fuel st stop hmore hroom hdma hres => ?_)
    b.len (env.start t) (Nat.zero_le _) rfl
  · rw [lastFence, hmore]
    rfl
  · have hcase := env.stepCase b hroom hdma
    rw [hres] at hcase
    cases hcase with
    | next hdr st' l hhdr haccepts hoff hused hdma' hfence hl =>
      have hrest := lastFence_extends (b := b) fuel (room_of_round hroom hdma ⟨hmore, hres⟩).1
        (hdma'.trans hdma)
      rw [lastFence, if_pos hmore, hres]
      dsimp only
      rw [length_append_eq_iff hfence hrest, hl]
      refine and_congr_left' ⟨fun hzero hdr' hhdr' hdraws => ?_, fun hall => ?_⟩
      · cases hhdr.symm.trans hhdr'
        exact hdraws.2.2 hzero
      · by_contra hne
        exact hall hdr hhdr ⟨haccepts.1, haccepts.2.1, hne⟩
  · have hcase := env.stepCase b hroom hdma
    rw [hres] at hcase
    cases hcase with
    | stop stop l h hfence hl =>
      rw [lastFence, if_pos hmore, hres, ← hl]
      dsimp only
      rw [hfence, List.length_append, ← List.length_eq_zero_iff]
      omega

theorem unsignaled_fenceAfter (env : RenderEnv) (t : FenceTracker) (b : UserBuffer) :
    ∃ l, (env.fenceAfter t b).unsignaled = t.unsignaled ++ l ∧ (l = [] ↔ env.DrawsNone b) := by
  unfold fenceAfter DrawsNone
  split_ifs with halloc
  · exact ⟨[], by simp, by simp [halloc]⟩
  have hroom : RoomInv (env.start t) := Nat.zero_le _
  obtain ⟨l, hl⟩ := lastFence_extends (b := b) b.len hroom (rfl : _ = env.dma)
  refine ⟨l, hl, ?_⟩
  rw [or_iff_right halloc, ← lastFence_length_iff env b t, hl, ← List.length_eq_zero_iff]
  simp [start]

end RenderEnv

/-! ### `present` -/

/-- The request could not be queued. -/
def VirglAttach.isUnqueued : VirglAttach → Bool
  | unqueued _ => true
  | _ => false

/-- With `room` bytes, at least one command of the steps is written. -/
def PresentStep.Writes (room : ℕ) : List PresentStep → Prop
  | [] => False
  | step :: steps => step.needed ≤ room ∧ (step.element.isSome = true ∨ Writes room steps)

theorem commands_encodeSteps {steps : List PresentStep} {w : DmaWriter}
    (hsized : ∀ step ∈ steps, step.Sized) (hoff : w.offset = 0) (hnone : w.commands = []) :
    (encodeSteps steps w).2.commands = [] ↔ ¬ PresentStep.Writes w.dma.len steps := by
  induction steps with
  | nil => simp [encodeSteps, PresentStep.Writes, hnone]
  | cons step steps ih =>
    unfold PresentStep.Writes
    by_cases hneeded : step.needed ≤ w.dma.len
    case neg =>
      rw [encodeSteps, if_neg (by omega), if_pos (by omega)]
      simp [hneeded, hnone]
    rw [encodeSteps_cons (by omega) (hsized step List.mem_cons_self), and_iff_right hneeded]
    cases he : step.element with
    | none =>
      rw [Option.toList_none, DmaWriter.addAll_nil,
        ih fun s hs => hsized s (List.mem_cons_of_mem step hs)]
      simp
    | some e =>
      refine iff_of_false (fun hempty => ?_) (by simp)
      obtain ⟨l, -, hlen⟩ := DmaWriter.extends_encodeSteps (w := w.addAll [e]) steps
      rw [Option.toList_some] at hempty
      have hcount : (w.addAll [e]).commands.length = w.commands.length + 1 := by
        simp [DmaWriter.addAll, Element.entries, Slice.layout]
      rw [hempty, List.length_nil] at hlen
      omega

theorem VirglAttach.isUnqueued_of_ok {v : VirglAttach} (h : v.result = .ok ()) :
    v.isUnqueued = false := by
  cases v with
  | attached | answered r => rfl
  | unqueued => cases h

namespace PresentArgs

variable {args : PresentArgs} {t : FenceTracker} {context : ℕ} {src dst : PresentAlloc}

/-- Everything is encoded: there is room for all commands, and for the private data. -/
def EncodesAll (args : PresentArgs) (context : ℕ) (src dst : PresentAlloc) : Prop :=
  totalLen (args.steps context src dst) ≤ args.dma.len ∧
    commandDmaPrivateSize ≤ args.privateDataSize ∧ args.hasPrivateData = true

/-- `present` draws a fence: for the request to attach an allocation, or for its first command. -/
def Draws (args : PresentArgs) : Prop :=
  ∃ context src dst, args.check = .ok (context, src, dst) ∧
    (src.virgl ≠ .attached ∨ dst.virgl ≠ .attached ∨
      PresentStep.Writes args.dma.len (args.steps context src dst))

/-- The requests to attach the allocations can be queued, and after them all commands are encoded,
or none. -/
def Clean (args : PresentArgs) : Prop :=
  ∀ context src dst, args.check = .ok (context, src, dst) →
    src.virgl.isUnqueued = false ∧ (src.virgl.result.isOk = true →
      dst.virgl.isUnqueued = false ∧ (dst.virgl.result.isOk = true →
        args.EncodesAll context src dst ∨
          ¬ PresentStep.Writes args.dma.len (args.steps context src dst)))

/-- A request to attach one of the allocations could not be queued. -/
def unqueued (args : PresentArgs) : Bool := match args.check with
  | .ok (_, src, dst) =>
    src.virgl.isUnqueued || (src.virgl.result.isOk && dst.virgl.isUnqueued)
  | .error _ => false

theorem encode_spec (args : PresentArgs) (t : FenceTracker) (requests : List ℕ) (context : ℕ)
    (src dst : PresentAlloc) :
    (args.encode t requests context src dst).requests = requests ∧
      (args.emptyWriter t).Extends (args.encode t requests context src dst).writer := by
  obtain ⟨hrequests, hwriter⟩ := args.encode_frame t requests context src dst
  rw [hwriter]
  exact ⟨hrequests, DmaWriter.extends_encodeSteps _⟩

/-- The fences `l` drawn on the way belong to the requests and the commands, but for one whose
request was not queued. -/
def Accounts (t : FenceTracker) (unqueued : Bool) (r : PresentOutcome) : Prop :=
  ∃ l, r.writer.fence.unsignaled = t.unsignaled ++ l ∧ r.requests.Subperm l ∧
    l.length = r.requests.length + r.writer.commands.length + unqueued.toNat

theorem virgl_spec (v : VirglAttach) (t : FenceTracker) :
    ∃ l, (v.tracker t).unsignaled = t.unsignaled ++ l ∧ (v.requests t).Subperm l ∧
      l.length = (v.requests t).length + v.isUnqueued.toNat := by
  cases v with
  | attached => exact ⟨[], by simp [VirglAttach.tracker], .refl _, rfl⟩
  | unqueued => exact ⟨[t.nextFence], rfl, List.nil_subperm, rfl⟩
  | answered => exact ⟨[t.nextFence], rfl, .refl _, rfl⟩

theorem accounts_attachAndEncode :
    Accounts t (src.virgl.isUnqueued || (src.virgl.result.isOk && dst.virgl.isUnqueued))
      (args.attachAndEncode t context src dst) := by
  obtain ⟨l, hl, hreq, hlen⟩ := virgl_spec src.virgl t
  obtain ⟨l', hl', hreq', hlen'⟩ := virgl_spec dst.virgl (src.virgl.tracker t)
  unfold attachAndEncode
  dsimp only
  cases hsrc : src.virgl.result with
  | error =>
    refine ⟨l, hl, hreq, ?_⟩
    simp [emptyWriter, hlen, Except.isOk, Except.toBool]
  | ok =>
    rw [VirglAttach.isUnqueued_of_ok hsrc] at hlen ⊢
    have hboth : (dst.virgl.tracker (src.virgl.tracker t)).unsignaled =
        t.unsignaled ++ (l ++ l') := by rw [hl', hl, List.append_assoc]
    cases hdst : dst.virgl.result with
    | error e =>
      refine ⟨l ++ l', hboth, hreq.append hreq', ?_⟩
      simp only [emptyWriter, List.length_append, List.length_nil, hlen, hlen', Except.isOk,
        Except.toBool, Bool.true_and, Bool.false_or, Bool.toNat_false]
      omega
    | ok =>
      rw [VirglAttach.isUnqueued_of_ok hdst] at hlen' ⊢
      obtain ⟨hrequests, k, hk, hcommands⟩ := args.encode_spec
        (dst.virgl.tracker (src.virgl.tracker t))
        (src.virgl.requests t ++ dst.virgl.requests (src.virgl.tracker t)) context src dst
      refine ⟨l ++ l' ++ k, ?_, ?_, ?_⟩
      · rw [hk, ← List.append_assoc, ← hboth]
        rfl
      · rw [hrequests]
        exact (hreq.append hreq').trans (List.sublist_append_left _ _).subperm
      · rw [hrequests, hcommands]
        simp only [emptyWriter, List.length_append, List.length_nil, hlen, hlen', Bool.and_false,
          Bool.or_false, Bool.toNat_false]
        omega

section

variable (args : PresentArgs) (t : FenceTracker)

theorem accounts_present : Accounts t args.unqueued (args.present t) := by
  unfold present unqueued
  cases args.check with
  | ok => exact accounts_attachAndEncode
  | error r =>
    cases r with
    | ok | error e => exact ⟨[], by simp [emptyWriter], .refl _, rfl⟩

theorem encode_ok_iff (requests : List ℕ) (context : ℕ) (src dst : PresentAlloc) :
    (args.encode t requests context src dst).result.isOk = true ↔
      args.EncodesAll context src dst := by
  rw [result_encode, EncodesAll]
  split_ifs with hsize hpriv
  · simp only [Except.isOk, Except.toBool, Bool.false_eq_true, false_iff]
    omega
  · simp_all [Except.isOk, Except.toBool]
  · simp_all [Except.isOk, Except.toBool]

theorem commands_encode (requests : List ℕ) (context : ℕ) (src dst : PresentAlloc) :
    (args.encode t requests context src dst).writer.commands = [] ↔
      ¬ PresentStep.Writes args.dma.len (args.steps context src dst) := by
  rw [(args.encode_frame t requests context src dst).2]
  exact commands_encodeSteps (args.sized_steps context src dst) rfl rfl

/-- The condition on what `present` is given, against what it has done. -/
theorem clean_iff :
    args.Clean ↔ (args.present t).result.isOk = true ∨
      ((args.present t).writer.commands = [] ∧ args.unqueued = false) := by
  unfold Clean present unqueued
  cases args.check with
  | error r =>
    refine iff_of_true (fun _ _ _ h => by cases h) ?_
    cases r with
    | ok => exact .inl rfl
    | error => exact .inr ⟨rfl, rfl⟩
  | ok x =>
    obtain ⟨context, src, dst⟩ := x
    refine Iff.trans ⟨fun h => h context src dst rfl, ?_⟩ ?_
    · rintro h _ _ _ ⟨⟩
      exact h
    unfold attachAndEncode
    cases hsrc : src.virgl.result with
    | error => simp [hsrc, Except.isOk, Except.toBool, emptyWriter]
    | ok =>
      have hsrcQueued := VirglAttach.isUnqueued_of_ok hsrc
      cases hdst : dst.virgl.result with
      | error => simp [hsrc, hdst, hsrcQueued, Except.isOk, Except.toBool, emptyWriter]
      | ok =>
        have hdstQueued := VirglAttach.isUnqueued_of_ok hdst
        simp only [hsrc, hdst]
        rw [encode_ok_iff, commands_encode]
        simp [hsrcQueued, hdstQueued, Except.isOk, Except.toBool]

end

end PresentArgs

/-! ### Calls -/

/-- A call that draws fences. -/
inductive FenceCall where
  /-- An operation of `GpuChannel`; `fence` is the fence in the header of a command, which is in the
  DMA buffer. -/
  | channel (op : GpuOp) (env : OpEnv) (fence : Command → ℕ)
  | render (env : RenderEnv) (b : UserBuffer)
  | present (args : PresentArgs)

/-- What a call has done to the fences. -/
structure CallOutcome where
  tracker : FenceTracker
  /-- Those it has drawn and left to a request or a DMA buffer. -/
  kept : List ℕ
  /-- Those of commands that it was to submit and has not. -/
  lost : List ℕ

inductive FencePanic where
  | submit (panic : SubmitPanic)
  | render (stop : RenderStop)
  /-- `assert!(fence < next_fence)` of `FenceTracker::signal` -/
  | signal

/-- The fences that were drawn between two states of the tracker. -/
def FenceTracker.drawn (t t' : FenceTracker) : List ℕ := t'.unsignaled.drop t.unsignaled.length

theorem FenceTracker.drawn_eq {t t' : FenceTracker} {l : List ℕ}
    (h : t'.unsignaled = t.unsignaled ++ l) : t.drawn t' = l := by
  rw [drawn, h, List.drop_left]

namespace FenceCall

/-- The fences of the commands that the call is to submit. -/
def carried : FenceCall → List ℕ
  | channel op _ fence => op.commands.map fence
  | render .. | present .. => []

/-- The call.  The fences of a DMA buffer are left to it if the private data is written, and those
of a request if it is queued. -/
def run (t : FenceTracker) : FenceCall → Outcome CallOutcome FencePanic
  | channel op env fence => match op.run env t with
    | .next r => .next ⟨r.fence, if 0 < r.queued then t.drawn r.fence else [],
        (op.commands.drop r.queued).map fence⟩
    | .stuck => .stuck
    | .panic p => .panic (.submit p)
  | render env b => match (env.render t b).result with
    | .ok (_, w) => .next ⟨w.fence, t.drawn w.fence, []⟩
    | .error (.status _) => .next ⟨env.fenceAfter t b, [], []⟩
    | .error stop => .panic (.render stop)
  | present args => match (args.present t).result with
    | .ok _ =>
      .next ⟨(args.present t).writer.fence, t.drawn (args.present t).writer.fence, []⟩
    | .error (.status _) => .next ⟨(args.present t).writer.fence, (args.present t).requests, []⟩
    | .error stop => .panic (.render stop)

/-- The call succeeds, or comes to no fence.  An operation builds no header with a fence, or there
is memory for its request; and its commands can be queued.  `render` encodes all commands and there
is room for the private data, or it comes to no command that draws a fence. -/
def Clean : FenceCall → Prop
  | channel op env _ => (op.draws env = true → op.needs.Met env) ∧ op.Submits env
  | render env b => (env.Encodes b ∧ env.RoomForPrivate) ∨ env.DrawsNone b
  | present args => args.Clean

variable {t : FenceTracker} {c : FenceCall} {r : CallOutcome}

/-- What a call has drawn, what it leaves to somebody, and when that is the same. -/
def Balanced (t : FenceTracker) (clean : Prop) (r : CallOutcome) : Prop :=
  ∃ l, r.tracker.unsignaled = t.unsignaled ++ l ∧ r.kept.Subperm l ∧
    (clean ↔ r.lost = [] ∧ l.length = r.kept.length)

theorem balanced_channel {op : GpuOp} {env : OpEnv} {fence : Command → ℕ} {r : OpResult}
    (h : op.run env t = .next r) :
    Balanced t ((op.draws env = true → op.needs.Met env) ∧ op.Submits env)
      ⟨r.fence, if 0 < r.queued then t.drawn r.fence else [],
        (op.commands.drop r.queued).map fence⟩ := by
  have hfence := GpuOp.fence_run h
  obtain ⟨hqueued, hsubmits⟩ := GpuOp.queued_run h
  have hlost : op.Submits env ↔ (op.commands.drop r.queued).map fence = [] := by
    rw [← hsubmits, List.map_eq_nil_iff, List.drop_eq_nil_iff]
  rw [hlost]
  cases hdraws : op.draws env with
  | false =>
    rw [hdraws] at hfence
    have hnone : t.drawn r.fence = [] := by
      rw [hfence]
      simp [FenceTracker.drawn]
    exact ⟨[], by rw [hfence]; simp, by simp [hnone], by simp [hnone]⟩
  | true =>
    rw [hdraws] at hfence
    have happend : r.fence.unsignaled = t.unsignaled ++ [t.nextFence] := by
      rw [hfence]
      rfl
    have hone := FenceTracker.drawn_eq happend
    rw [← hqueued hdraws]
    refine ⟨[t.nextFence], happend, ?_, ?_⟩ <;> rw [hone] <;>
      rcases Nat.eq_zero_or_pos r.queued with hzero | hpos
    · simp [hzero]
    · simp [hpos]
    · simp [hzero]
    · simp [hpos]

theorem balanced_ok {t' : FenceTracker} {l : List ℕ} (h : t'.unsignaled = t.unsignaled ++ l) :
    Balanced t True ⟨t', t.drawn t', []⟩ := by
  rw [FenceTracker.drawn_eq h]
  exact ⟨l, h, .refl l, by simp⟩

theorem balanced_render {env : RenderEnv} {b : UserBuffer}
    (h : (render env b).run t = .next r) : Balanced t (Clean (render env b)) r := by
  obtain ⟨l, hl, hnone⟩ := env.unsignaled_fenceAfter t b
  have hok := env.render_ok_iff t b
  simp only [run] at h
  simp only [Clean]
  cases hres : (env.render t b).result with
  | error stop =>
    rw [hres] at h hok
    have hfails : ¬ (env.Encodes b ∧ env.RoomForPrivate) := fun henc => by
      obtain ⟨x, hx⟩ := hok.2 henc
      cases hx
    cases stop with
    | status =>
      cases h
      refine ⟨l, hl, List.nil_subperm, ?_⟩
      rw [or_iff_right hfails, ← hnone, ← List.length_eq_zero_iff]
      simp
    | noContext | fenceToHost | sliceIndex | writtenNeeded | fault => cases h
  | ok x =>
    obtain ⟨p, w⟩ := x
    have hclean : (env.Encodes b ∧ env.RoomForPrivate) ∨ env.DrawsNone b := .inl (hok.1 ⟨_, hres⟩)
    rw [hres] at h
    cases h
    rw [RenderEnv.fenceAfter_of_render hres] at hl
    simpa only [hclean] using balanced_ok hl

/-- **The balance of a call.** -/
theorem balanced_run (h : c.run t = .next r) : Balanced t c.Clean r := by
  cases c with
  | channel op env =>
    unfold run at h
    unfold Clean
    cases hop : op.run env t with
    | stuck => simp [hop] at h
    | panic => simp [hop] at h
    | next =>
      simp only [hop] at h
      cases h
      exact balanced_channel hop
  | render => exact balanced_render h
  | present args =>
    obtain ⟨l, hl, hreq, hlen⟩ := args.accounts_present t
    simp only [run] at h
    rw [Clean, args.clean_iff t]
    generalize (args.present t).result = x at h ⊢
    rcases x with stop | x
    · cases stop with
      | status e =>
        cases h
        refine ⟨l, hl, hreq, ?_⟩
        rw [← List.length_eq_zero_iff, hlen]
        cases args.unqueued with
        | false => simp [Except.isOk, Except.toBool]
        | true =>
          simp [Except.isOk, Except.toBool]
          omega
      | noContext | fenceToHost | sliceIndex | writtenNeeded | fault => cases h
    · cases h
      simpa [Except.isOk, Except.toBool] using balanced_ok hl

/-- The commands that were not queued are some of those the call was given. -/
theorem lost_subperm (h : c.run t = .next r) : r.lost.Subperm c.carried := by
  cases c with
  | channel op env fence =>
    unfold run at h
    cases hop : op.run env t with
    | stuck => simp [hop] at h
    | panic => simp [hop] at h
    | next =>
      simp only [hop] at h
      cases h
      exact ((List.drop_sublist _ _).map fence).subperm
  | render env b | present args =>
    simp only [run] at h
    split at h <;> cases h <;> exact List.nil_subperm

end FenceCall

/-! ### Runs -/

/-- The tracker, and the fences that belong to somebody: to a request in a channel or with the
device, or to a command in a DMA buffer that is still to be submitted. -/
structure FenceHolders where
  tracker : FenceTracker
  held : List ℕ

inductive FenceAct where
  | call (c : FenceCall)
  /-- The device has answered the request with the fence `f`. -/
  | answer (f : ℕ)

/-- Calls and answers in any order. -/
def fenceMachine : Machine FenceHolders FenceAct FencePanic where
  step s
    | .call c =>
      -- The commands that are given to an operation come from a DMA buffer.
      if c.carried.Subperm s.held then (c.run s.tracker).bind fun r =>
        .next ⟨r.tracker, s.held.diff r.lost ++ r.kept⟩
      else .stuck
    | .answer f =>
      if f ∈ s.held then match s.tracker.signal f with
        | some t => .next ⟨t, s.held.erase f⟩
        | none => .panic .signal
      else .stuck

/-- A call leaves no fence without an owner. -/
def FenceAct.Clean : FenceAct → Prop
  | call c => c.Clean
  | answer _ => True

namespace FenceHolders

variable {s s' : FenceHolders} {a : FenceAct}

/-- No fence is held that is not in the tracker. -/
def Inv (s : FenceHolders) : Prop := s.held.Subperm s.tracker.unsignaled

/-- Every fence in the tracker is held. -/
def AllHeld (s : FenceHolders) : Prop := s.tracker.unsignaled.Perm s.held

theorem Inv.allHeld_iff (h : s.Inv) :
    s.AllHeld ↔ s.tracker.unsignaled.length = s.held.length :=
  ⟨List.Perm.length_eq, fun hlen => (h.perm_of_length_le hlen.le).symm⟩

theorem step_spec (hs : s.Inv) (h : fenceMachine.step s a = .next s') :
    s'.Inv ∧ (s'.AllHeld ↔ s.AllHeld ∧ a.Clean) := by
  cases a with
  | call c =>
    simp only [fenceMachine] at h
    split_ifs at h with hcarried
    obtain ⟨r, hrun, h⟩ := Outcome.bind_eq_next.1 h
    cases h
    have hlost := (FenceCall.lost_subperm hrun).trans hcarried
    obtain ⟨l, hl, hkept, hclean⟩ := FenceCall.balanced_run hrun
    have hinv : FenceHolders.Inv ⟨r.tracker, s.held.diff r.lost ++ r.kept⟩ := by
      unfold Inv
      dsimp only
      rw [hl]
      exact (((List.diff_sublist _ _).subperm.trans hs)).append hkept
    refine ⟨hinv, ?_⟩
    rw [hinv.allHeld_iff, hs.allHeld_iff, FenceAct.Clean, hclean, ← List.length_eq_zero_iff]
    have hdiff := (List.subperm_append_diff_self_of_count_le
      (List.subperm_ext_iff.1 hlost)).length_eq
    have hheld := hs.length_le
    have hle := hkept.length_le
    dsimp only
    rw [hl, List.length_append, List.length_append]
    rw [List.length_append] at hdiff
    omega
  | answer f =>
    simp only [fenceMachine] at h
    split_ifs at h with hmem
    cases hsignal : s.tracker.signal f with
    | none => simp [hsignal] at h
    | some t =>
      simp only [hsignal] at h
      cases h
      obtain ⟨-, -, ⟨hf, hperm⟩ | ⟨hf, -⟩⟩ := FenceTracker.signal_eq_some hsignal
      · have herase := List.perm_cons_erase hmem
        have hinv : FenceHolders.Inv ⟨t, s.held.erase f⟩ :=
          (List.subperm_cons f).1 ((herase.symm.subperm.trans hs).trans hperm.symm.subperm)
        refine ⟨hinv, ?_⟩
        rw [hinv.allHeld_iff, hs.allHeld_iff, FenceAct.Clean, and_true, ← hperm.length_eq,
          herase.length_eq]
        simp
      · exact absurd (hs.subset hmem) hf

end FenceHolders

end VirtioGpu
