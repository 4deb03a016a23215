import VirtioGpu.Device.Context
import VirtioGpu.Queue.Requests

/-!
# An attach that fails

`attach_to_device` makes a `DeviceSpecificAllocation` in up to five steps: it queues the command
that the allocation was created with, asks the host to create the blob, attaches the resource to the
context for blits if it is a 3D resource and the main context does not speak Virgl, attaches it to
the main context, and allocates memory.  Each step can fail after the earlier ones are done.

Nothing is undone, except that a `DeviceSpecificAllocation` for which there is no memory is dropped.
The flag `ALLOCATION_FLAG_CREATED` is set before the blob is created, and stays.  A resource that
was attached to the context for blits stays attached if the main context refuses it.  And a command
that has no room for its header is taken out of the allocation without being queued; those made by
`create_allocation` have.

`ensure_virgl_attached` sets the flag `virgl` before it attaches the resource.  If the host refuses,
the flag stays: no later call tries again, and the destructor detaches the resource from a context
it was never attached to, and from the main context only if that succeeds.

* `rolled_back_iff` : for a call that fails, exactly when the flag, the command and the host are
  left as they should be; and `ensure_virgl_attached` never leaves its flag as it was when it fails.
* `not_rolled_back` : a blob that is refused, a main context that refuses, and an attach for blits.
-/

namespace VirtioGpu

/-! ### The allocation, the device and the host -/

/-- What becomes of a blocking request. -/
inductive HostReply where
  /-- There was no memory for the request. -/
  | notSent (e : NtStatus)
  /-- The wait fails; the host may do it nevertheless. -/
  | timedOut (e : NtStatus) (done : Bool)
  /-- The answer is not `OK_NODATA`. -/
  | refused
  | accepted
  deriving DecidableEq

namespace HostReply

/-- What the function that makes the request returns. -/
def result : HostReply → Except NtStatus Unit
  | notSent e | timedOut e _ => .error e
  | refused => .error .ioDeviceError
  | accepted => .ok ()

/-- The host gets the request. -/
def sent : HostReply → Bool
  | notSent _ => false
  | _ => true

/-- The host does what it is asked to. -/
def done : HostReply → Bool
  | timedOut _ done => done
  | accepted => true
  | _ => false

end HostReply

/-- Requests about a resource. -/
inductive HostRequest where
  /-- `SUBMIT_3D`, with the field `size` of its header and what follows the header. -/
  | submit3d (context size : ℕ) (body : List UInt8)
  | createBlob (context resource blobId mem flags size : ℕ)
  /-- `CTX_ATTACH_RESOURCE` -/
  | attach (context resource : ℕ)
  /-- `CTX_DETACH_RESOURCE` -/
  | detach (context resource : ℕ)

/-- `VirtioResource`, as far as creating it is concerned. -/
inductive ResourceKind where
  | _3d
  | blob (blobId mem flags size : ℕ)

/-- `DeviceSpecificAllocation` -/
structure DeviceSpecific where
  owned : Bool
  virgl : Bool

/-- An allocation, a device, and what the host has. -/
structure AttachWorld where
  id : ℕ
  resource : ResourceKind
  /-- `ALLOCATION_FLAG_CREATED` -/
  created : Bool
  cmd : Option (List UInt8)
  /-- `main_context` -/
  main : Option Context3D
  /-- `virgl_blit_context` -/
  blit : Option Context3D
  /-- What the entry of `device_specific` for the context is upgraded to. -/
  existing : Option DeviceSpecific
  requests : List HostRequest
  onHost : Bool
  /-- The contexts the host has attached it to and not detached it from. -/
  attached : List ℕ

/-- How the requests of a call end. -/
structure AttachReplies where
  create : HostReply
  virgl : HostReply
  main : HostReply
  /-- `Arc::try_new` finds memory. -/
  memory : Bool
  detachVirgl : HostReply
  detachMain : HostReply

namespace AttachWorld

variable (w : AttachWorld)

/-- `device.capset()` is one of the two Virgl capsets. -/
def speaksVirgl : Bool :=
  match w.main with
  | some ⟨_, .virgl⟩ | some ⟨_, .virgl2⟩ => true
  | _ => false

def is3d : Bool :=
  match w.resource with
  | ._3d => true
  | .blob .. => false

def shadowVirgl : Bool := w.is3d && !w.speaksVirgl

def queue (req : HostRequest) (reply : HostReply) : AttachWorld :=
  { w with requests := w.requests ++ if reply.sent then [req] else [] }

/-- `context_attach_resource` and `context_attach_virgl`. -/
def contextAttachResource (context : Option Context3D) (reply : HostReply) :
    Except NtStatus Unit × AttachWorld :=
  match context with
  | none => (.error .reinitializationNeeded, w)
  | some c => (reply.result, { w.queue (.attach c.id w.id) reply with
      attached := if reply.done then c.id :: w.attached else w.attached })

/-- `context_detach_resource_internal` -/
def contextDetachInternal (context : Option Context3D) (reply : HostReply) :
    Except NtStatus Unit × AttachWorld :=
  match context with
  | none => (.error .reinitializationNeeded, w)
  | some c => (reply.result, { w.queue (.detach c.id w.id) reply with
      attached := if reply.done then w.attached.erase c.id else w.attached })

def contextDetachResource (hasVirgl : Bool) (env : AttachReplies) :
    Except NtStatus Unit × AttachWorld :=
  if hasVirgl then
    match w.contextDetachInternal w.blit env.detachVirgl with
    | (.error e, w) => (.error e, w)
    | (.ok (), w) => w.contextDetachInternal w.main env.detachMain
  else w.contextDetachInternal w.main env.detachMain

def contextSubmit3d (data : List UInt8) : Except NtStatus Unit × AttachWorld :=
  match w.main with
  | none => (.error .reinitializationNeeded, w)
  | some c =>
    if data.length < cmdSubmit3DSize then (.error .bufferTooSmall, w)
    else (.ok (), { w with requests := w.requests ++
      [.submit3d c.id (data.length - cmdSubmit3DSize) (data.drop cmdSubmit3DSize)] })

def contextCreateBlob (blobId mem flags size : ℕ) (reply : HostReply) :
    Except NtStatus Unit × AttachWorld :=
  match w.main with
  | none => (.error .reinitializationNeeded, w)
  | some c => (reply.result, { w.queue (.createBlob c.id w.id blobId mem flags size) reply with
      onHost := w.onHost || reply.done })

/-! ### The calls -/

/-- The stored command is taken and queued. -/
def submitCmd : Except NtStatus Unit × AttachWorld :=
  match w.cmd with
  | none => (.ok (), w)
  | some data => { w with cmd := none }.contextSubmit3d data

/-- The flag is set, and the blob is created if the flag was not set. -/
def create (w : AttachWorld) (env : AttachReplies) : Except NtStatus Unit × AttachWorld :=
  let w' := { w with created := true }
  if w.created then (.ok (), w')
  else match w.resource with
    | ._3d => (.ok (), w')
    | .blob blobId mem flags size => w'.contextCreateBlob blobId mem flags size env.create

/-- The resource is attached to the contexts. -/
def attachContexts (env : AttachReplies) : Except NtStatus Unit × AttachWorld :=
  if w.shadowVirgl then
    match w.contextAttachResource w.blit env.virgl with
    | (.error e, w) => (.error e, w)
    | (.ok (), w) => w.contextAttachResource w.main env.main
  else w.contextAttachResource w.main env.main

/-- `DeviceSpecificAllocation::new` -/
def new (owned : Bool) (env : AttachReplies) : Except NtStatus DeviceSpecific × AttachWorld :=
  match w.submitCmd with
  | (.error e, w) => (.error e, w)
  | (.ok (), w) => match w.create env with
    | (.error e, w) => (.error e, w)
    | (.ok (), w) => match w.attachContexts env with
      | (.error e, w) => (.error e, w)
      | (.ok (), w) => (.ok ⟨owned, w.shadowVirgl⟩, w)

/-- `DeviceSpecificAllocation::drop`, with the allocation and the device alive. -/
def dropSpecific (d : DeviceSpecific) (env : AttachReplies) : AttachWorld :=
  (w.contextDetachResource d.virgl env).2

/-- `Allocation::attach_to_device` -/
def attachToDevice (owned : Bool) (env : AttachReplies) :
    Except NtStatus DeviceSpecific × AttachWorld :=
  match w.main with
  | none => (.error .reinitializationNeeded, w)
  | some _ => match w.existing with
    | some d => (.ok d, w)
    | none => match w.new owned env with
      | (.error e, w) => (.error e, w)
      | (.ok d, w) =>
        if env.memory then (.ok d, { w with existing := some d })
        else (.error .noMemory, w.dropSpecific d env)

end AttachWorld

/-- `expect` on a reference that cannot be upgraded. -/
inductive EnsurePanic where
  | allocationGone
  | deviceGone

/-- `DeviceSpecificAllocation::ensure_virgl_attached`; `alloc` and `device` say whether the
references can be upgraded. -/
def DeviceSpecific.ensureVirglAttached (d : DeviceSpecific) (w : AttachWorld) (alloc device : Bool)
    (reply : HostReply) :
    Outcome (Except NtStatus Unit × DeviceSpecific × AttachWorld) EnsurePanic :=
  if !alloc then .panic .allocationGone
  else if !device then .panic .deviceGone
  else if w.speaksVirgl then .next (.ok (), d, w)
  else if d.virgl then .next (.ok (), d, w)
  else
    -- The flag is set before the request.
    let r := w.contextAttachResource w.blit reply
    .next (r.1, { d with virgl := true }, r.2)

/-! ### What a failed call should leave behind -/

namespace AttachWorld

/-- The world after a failed call is as it should be. -/
structure RolledBack (w w' : AttachWorld) : Prop where
  /-- The flag is set only if the host has the resource. -/
  created : w'.created → w'.onHost
  /-- The command is still there, or it is among the requests of the call. -/
  cmd : ∀ data, w.cmd = some data → w'.cmd = some data ∨ ∃ context reqs,
    w'.requests = w.requests ++ reqs ∧
      .submit3d context (data.length - cmdSubmit3DSize) (data.drop cmdSubmit3DSize) ∈ reqs
  /-- What the host has attached during the call has been detached. -/
  attached : w'.attached = w.attached

/-- The blob is created by the call. -/
def createsBlob (w : AttachWorld) : Bool := !w.created && !w.is3d

/-- The attachments of a failed call are undone: none is accepted, or all are and the destructor
succeeds. -/
def AttachUndone (w : AttachWorld) (env : AttachReplies) : Prop :=
  if w.shadowVirgl then
    w.blit = none ∨ env.virgl.done = false ∨
      env.virgl = .accepted ∧ env.main = .accepted ∧ env.detachVirgl = .accepted ∧
        env.detachMain.done = true
  else env.main.done = false ∨ env.main = .accepted ∧ env.detachMain.done = true

/-- A failed call does no harm. -/
def Harmless (w : AttachWorld) (env : AttachReplies) : Prop :=
  match w.main with
  | none => w.created → w.onHost
  | some _ =>
    -- The command has room for its header.
    (∀ data, w.cmd = some data → cmdSubmit3DSize ≤ data.length) ∧
    -- The host has the resource when the call returns.
    (w.onHost ∨ w.createsBlob ∧ env.create.done) ∧
    (w.createsBlob ∧ env.create ≠ .accepted ∨ w.AttachUndone env)

/-! ### The steps of a call -/

end AttachWorld

@[simp] theorem HostReply.result_eq_ok {reply : HostReply} :
    reply.result = .ok () ↔ reply = .accepted := by
  cases reply <;> simp [result]

@[simp] theorem HostReply.done_accepted : HostReply.accepted.done = true := rfl

namespace AttachWorld

variable {w w' : AttachWorld} {c : Context3D} {env : AttachReplies} {e : NtStatus}
  {w₁ w₂ : AttachWorld} {owned : Bool}

theorem submitCmd_cases (hmain : w.main = some c) :
    (∃ data, w.cmd = some data ∧ data.length < cmdSubmit3DSize ∧
      w.submitCmd = (.error .bufferTooSmall, { w with cmd := none })) ∨
    ∃ reqs, w.submitCmd = (.ok (), { w with cmd := none, requests := w.requests ++ reqs }) ∧
      ∀ data, w.cmd = some data → cmdSubmit3DSize ≤ data.length ∧
        .submit3d c.id (data.length - cmdSubmit3DSize) (data.drop cmdSubmit3DSize) ∈ reqs := by
  cases hcmd : w.cmd with
  | none =>
    refine .inr ⟨[], ?_, fun data hdata => by cases hdata⟩
    simp only [submitCmd, hcmd, List.append_nil]
    rw [← hcmd]
  | some data =>
    by_cases hlen : data.length < cmdSubmit3DSize
    · exact .inl ⟨data, rfl, hlen, by simp [submitCmd, hcmd, contextSubmit3d, hmain, hlen]⟩
    · refine .inr ⟨_, by simp [submitCmd, hcmd, contextSubmit3d, hmain, hlen]; rfl, ?_⟩
      rintro data' ⟨⟩
      exact ⟨not_lt.1 hlen, List.mem_singleton_self _⟩

theorem create_cases (env : AttachReplies) (hmain : w.main = some c) :
    (∃ reqs e, w.createsBlob ∧ env.create ≠ .accepted ∧ w.create env = (.error e, { w with
      created := true
      requests := w.requests ++ reqs
      onHost := w.onHost || env.create.done })) ∨
    ∃ reqs, (w.createsBlob → env.create = .accepted) ∧ w.create env = (.ok (), { w with
      created := true
      requests := w.requests ++ reqs
      onHost := w.onHost || w.createsBlob }) := by
  cases hcreated : w.created with
  | true => exact .inr ⟨[], by simp [create, createsBlob, hcreated]⟩
  | false =>
    obtain hres | ⟨blobId, mem, flags, size, hres⟩ : w.resource = ._3d ∨
        ∃ blobId mem flags size, w.resource = .blob blobId mem flags size := by
      cases w.resource <;> simp
    · exact .inr ⟨[], by simp [create, createsBlob, is3d, hcreated, hres]⟩
    · have hcreate : w.create env = (env.create.result, { w with
          created := true
          requests := w.requests ++ if env.create.sent then
            [.createBlob c.id w.id blobId mem flags size] else []
          onHost := w.onHost || env.create.done }) := by
        simp [create, contextCreateBlob, queue, hcreated, hres, hmain]
      have hcreates : w.createsBlob = true := by simp [createsBlob, is3d, hcreated, hres]
      by_cases hacc : env.create = .accepted
      · refine .inr ⟨[.createBlob c.id w.id blobId mem flags size], fun _ => hacc, ?_⟩
        rw [hcreate, hacc, hcreates]
        rfl
      · cases hresult : env.create.result with
        | ok => exact absurd (HostReply.result_eq_ok.1 hresult) hacc
        | error e => exact .inl ⟨_, e, hcreates, hacc, hcreate.trans (by rw [hresult])⟩

/-- The requests and the attachments change. -/
def Changed (w w' : AttachWorld) (attached : List ℕ) : Prop :=
  ∃ reqs, w' = { w with requests := w.requests ++ reqs, attached := attached }

theorem Changed.trans {w'' : AttachWorld} {attached attached' : List ℕ}
    (h : w.Changed w' attached) (h' : w'.Changed w'' attached') : w.Changed w'' attached' := by
  obtain ⟨reqs, rfl⟩ := h
  obtain ⟨reqs', rfl⟩ := h'
  exact ⟨reqs ++ reqs', by simp⟩

theorem changed_attach (w : AttachWorld) (c : Context3D) (reply : HostReply) :
    w.Changed (w.contextAttachResource (some c) reply).2
      (if reply.done then c.id :: w.attached else w.attached) := ⟨_, rfl⟩

theorem changed_detach (w : AttachWorld) (c : Context3D) (reply : HostReply) :
    w.Changed (w.contextDetachInternal (some c) reply).2
      (if reply.done then w.attached.erase c.id else w.attached) := ⟨_, rfl⟩

theorem Changed.contexts {attached : List ℕ} (h : w.Changed w' attached) :
    w'.main = w.main ∧ w'.blit = w.blit ∧ w'.shadowVirgl = w.shadowVirgl ∧
      w'.attached = attached := by
  obtain ⟨reqs, rfl⟩ := h
  exact ⟨rfl, rfl, rfl, rfl⟩

theorem attachContexts_shadow (env : AttachReplies) {b : Context3D} (hmain : w.main = some c)
    (hblit : w.blit = some b) (hshadow : w.shadowVirgl = true) :
    (env.virgl ≠ .accepted → (∃ e, (w.attachContexts env).1 = .error e) ∧
      w.Changed (w.attachContexts env).2
        (if env.virgl.done then b.id :: w.attached else w.attached)) ∧
    (env.virgl = .accepted → (w.attachContexts env).1 = env.main.result ∧
      w.Changed (w.attachContexts env).2
        (if env.main.done then c.id :: b.id :: w.attached else b.id :: w.attached)) := by
  have hfirst := w.changed_attach b env.virgl
  have hresult : (w.contextAttachResource (some b) env.virgl).1 = env.virgl.result := rfl
  unfold attachContexts
  rw [hshadow, if_pos rfl, hblit]
  generalize w.contextAttachResource (some b) env.virgl = r at hfirst hresult
  obtain ⟨r, w₁⟩ := r
  dsimp only at hfirst hresult
  constructor
  · intro hne
    cases r with
    | error e => exact ⟨⟨e, rfl⟩, hfirst⟩
    | ok => exact absurd (HostReply.result_eq_ok.1 hresult.symm) hne
  · intro hacc
    rw [hacc] at hresult hfirst
    obtain rfl : r = .ok () := hresult
    obtain ⟨hmain₁, -, -, hattached⟩ := hfirst.contexts
    have hsecond := w₁.changed_attach c env.main
    simp only [HostReply.done_accepted, if_true] at hattached
    rw [hattached] at hsecond
    simp only [hmain₁, hmain]
    exact ⟨rfl, hfirst.trans hsecond⟩

theorem attachContexts_error (hmain : w.main = some c) (h : (w.attachContexts env).1 = .error e) :
    ∃ attached, w.Changed (w.attachContexts env).2 attached ∧
      (attached = w.attached ↔ w.AttachUndone env) := by
  have hne : ∀ x : ℕ, x :: w.attached ≠ w.attached := fun x => List.cons_ne_self _ _
  cases hshadow : w.shadowVirgl with
  | false =>
    simp only [attachContexts, AttachUndone, hshadow, hmain, Bool.false_eq_true, if_false] at h ⊢
    refine ⟨_, w.changed_attach c env.main, ?_⟩
    have hmainReply : env.main ≠ .accepted := by
      intro hacc
      simp [contextAttachResource, hacc, HostReply.result] at h
    cases hdone : env.main.done <;> simp [hmainReply, hne]
  | true =>
    cases hblit : w.blit with
    | none =>
      refine ⟨w.attached, ⟨[], ?_⟩, by simp [AttachUndone, hshadow, hblit]⟩
      simp only [attachContexts, contextAttachResource, hshadow, hblit, if_true, List.append_nil]
      rw [← hblit]
    | some b =>
      have hcases := attachContexts_shadow env hmain hblit hshadow
      simp only [AttachUndone, hshadow, hblit, if_true]
      by_cases hvirgl : env.virgl = .accepted
      · -- The context for blits has the resource, and keeps it.
        obtain ⟨hresult, hchanged⟩ := hcases.2 hvirgl
        have hmainReply : env.main ≠ .accepted := by
          intro hacc
          rw [hresult, hacc] at h
          cases h
        refine ⟨_, hchanged, iff_of_false ?_ (by simp [hvirgl, hmainReply])⟩
        intro heq
        have := congrArg List.length heq
        split at this <;> simp only [List.length_cons] at this <;> omega
      · refine ⟨_, (hcases.1 hvirgl).2, ?_⟩
        cases hdone : env.virgl.done <;> simp [hvirgl, hne]

theorem attachContexts_ok (hmain : w.main = some c) (h : (w.attachContexts env).1 = .ok ()) :
    if w.shadowVirgl then
      ∃ b, w.blit = some b ∧ env.virgl = .accepted ∧ env.main = .accepted ∧
        w.Changed (w.attachContexts env).2 (c.id :: b.id :: w.attached)
    else env.main = .accepted ∧ w.Changed (w.attachContexts env).2 (c.id :: w.attached) := by
  cases hshadow : w.shadowVirgl with
  | false =>
    simp only [attachContexts, hshadow, hmain, Bool.false_eq_true, if_false] at h ⊢
    have hacc : env.main = .accepted := HostReply.result_eq_ok.1 h
    exact ⟨hacc, by simpa [hacc] using w.changed_attach c env.main⟩
  | true =>
    cases hblit : w.blit with
    | none => simp [attachContexts, contextAttachResource, hshadow, hblit] at h
    | some b =>
      have hcases := attachContexts_shadow env hmain hblit hshadow
      have hvirgl : env.virgl = .accepted := by
        by_contra hne
        obtain ⟨e, he⟩ := (hcases.1 hne).1
        rw [he] at h
        cases h
      obtain ⟨hresult, hchanged⟩ := hcases.2 hvirgl
      have hacc : env.main = .accepted := HostReply.result_eq_ok.1 (hresult.symm.trans h)
      rw [if_pos rfl]
      exact ⟨b, rfl, hvirgl, hacc, by simpa [hacc] using hchanged⟩

theorem changed_drop_main (env : AttachReplies) (hmain : w.main = some c) (owned : Bool) :
    w.Changed (w.dropSpecific ⟨owned, false⟩ env)
      (if env.detachMain.done then w.attached.erase c.id else w.attached) := by
  simp only [dropSpecific, contextDetachResource, hmain, Bool.false_eq_true, if_false]
  exact w.changed_detach c env.detachMain

theorem changed_drop_both (env : AttachReplies) {b : Context3D} (hmain : w.main = some c)
    (hblit : w.blit = some b) (owned : Bool) :
    w.Changed (w.dropSpecific ⟨owned, true⟩ env)
      (if env.detachVirgl = .accepted then
        if env.detachMain.done then (w.attached.erase b.id).erase c.id else w.attached.erase b.id
      else if env.detachVirgl.done then w.attached.erase b.id else w.attached) := by
  have hfirst := w.changed_detach b env.detachVirgl
  have hresult : (w.contextDetachInternal (some b) env.detachVirgl).1 =
      env.detachVirgl.result := rfl
  simp only [dropSpecific, contextDetachResource, hblit, if_true]
  generalize w.contextDetachInternal (some b) env.detachVirgl = r at hfirst hresult
  obtain ⟨r, w₁⟩ := r
  dsimp only at hfirst hresult
  by_cases hacc : env.detachVirgl = .accepted
  · rw [hacc] at hresult hfirst
    obtain rfl : r = .ok () := hresult
    obtain ⟨hmain₁, -, -, hattached⟩ := hfirst.contexts
    have hsecond := w₁.changed_detach c env.detachMain
    simp only [HostReply.done_accepted, if_true] at hattached
    rw [hattached] at hsecond
    simp only [hacc, if_true, hmain₁, hmain]
    exact hfirst.trans hsecond
  · cases r with
    | ok => exact absurd (HostReply.result_eq_ok.1 hresult.symm) hacc
    | error =>
      rw [if_neg hacc]
      exact hfirst

theorem dropSpecific_of_ok (hmain : w.main = some c) (h : (w.attachContexts env).1 = .ok ())
    (owned : Bool) :
    ∃ attached, w.Changed ((w.attachContexts env).2.dropSpecific
      ⟨owned, (w.attachContexts env).2.shadowVirgl⟩ env) attached ∧
        (attached = w.attached ↔ w.AttachUndone env) := by
  have hok := attachContexts_ok hmain h
  generalize (w.attachContexts env).2 = w₁ at hok
  unfold AttachUndone
  cases hshadow : w.shadowVirgl with
  | false =>
    obtain ⟨hacc, hchanged⟩ : env.main = .accepted ∧ w.Changed w₁ (c.id :: w.attached) := by
      simpa [hshadow] using hok
    obtain ⟨hmain₁, -, hshadow₁, hattached⟩ := hchanged.contexts
    have hdrop := changed_drop_main env (hmain₁.trans hmain) owned
    rw [hattached, List.erase_cons_head] at hdrop
    rw [hshadow₁, hshadow]
    refine ⟨_, hchanged.trans hdrop, ?_⟩
    cases hdone : env.detachMain.done <;> simp [hacc]
  | true =>
    obtain ⟨b, hblit, hvirgl, hacc, hchanged⟩ : ∃ b, w.blit = some b ∧ env.virgl = .accepted ∧
        env.main = .accepted ∧ w.Changed w₁ (c.id :: b.id :: w.attached) := by
      simpa [hshadow] using hok
    obtain ⟨hmain₁, hblit₁, hshadow₁, hattached⟩ := hchanged.contexts
    have hdrop := changed_drop_both env (hmain₁.trans hmain) (hblit₁.trans hblit) owned
    rw [hattached] at hdrop
    rw [hshadow₁, hshadow]
    refine ⟨_, hchanged.trans hdrop, ?_⟩
    have hlength : ((c.id :: b.id :: w.attached).erase b.id).length = w.attached.length + 1 :=
      List.length_erase_of_mem (by simp)
    have hboth : ((c.id :: b.id :: w.attached).erase b.id).erase c.id = w.attached := by
      by_cases heq : c.id = b.id
      · simp [heq]
      · simp [heq]
    have hone : (c.id :: b.id :: w.attached).erase b.id ≠ w.attached := fun heq => by
      rw [heq] at hlength
      omega
    by_cases hdetach : env.detachVirgl = .accepted
    · cases hdone : env.detachMain.done <;>
        simp [hvirgl, hacc, hblit, hdetach, hboth, hone]
    · have hneither : (if env.detachVirgl.done then (c.id :: b.id :: w.attached).erase b.id
          else c.id :: b.id :: w.attached) ≠ w.attached := by
        split
        · exact hone
        · intro heq
          have := congrArg List.length heq
          simp only [List.length_cons] at this
          omega
      simp [hvirgl, hacc, hblit, hdetach, hneither]

inductive FailCase (w : AttachWorld) (env : AttachReplies) (w' : AttachWorld) : Prop where
  | noContext (hmain : w.main = none) (hw : w' = w)
  | noHeader (c : Context3D) (hmain : w.main = some c) (data : List UInt8)
      (hcmd : w.cmd = some data) (hlen : data.length < cmdSubmit3DSize)
      (hw : w' = { w with cmd := none })
  /-- The blob is not created. -/
  | create (c : Context3D) (hmain : w.main = some c) (reqs : List HostRequest)
      (hcmd : ∀ data, w.cmd = some data → cmdSubmit3DSize ≤ data.length ∧
        .submit3d c.id (data.length - cmdSubmit3DSize) (data.drop cmdSubmit3DSize) ∈ reqs)
      (hblob : w.createsBlob) (hreply : env.create ≠ .accepted)
      (hw : w' = { w with
        cmd := none
        created := true
        requests := w.requests ++ reqs
        onHost := w.onHost || env.create.done })
  /-- A context refuses the resource, or there is no memory. -/
  | contexts (c : Context3D) (hmain : w.main = some c) (reqs : List HostRequest)
      (attached : List ℕ)
      (hcmd : ∀ data, w.cmd = some data → cmdSubmit3DSize ≤ data.length ∧
        .submit3d c.id (data.length - cmdSubmit3DSize) (data.drop cmdSubmit3DSize) ∈ reqs)
      (hreply : w.createsBlob → env.create = .accepted)
      (hattached : attached = w.attached ↔ w.AttachUndone env)
      (hw : w' = { w with
        cmd := none
        created := true
        requests := w.requests ++ reqs
        onHost := w.onHost || w.createsBlob
        attached := attached })

theorem FailCase.of_changed {w₂ : AttachWorld} {reqs : List HostRequest} {attached : List ℕ}
    (hmain : w.main = some c)
    (hcmd : ∀ data, w.cmd = some data → cmdSubmit3DSize ≤ data.length ∧
      .submit3d c.id (data.length - cmdSubmit3DSize) (data.drop cmdSubmit3DSize) ∈ reqs)
    (hreply : w.createsBlob → env.create = .accepted)
    (hw₂ : w₂ = { w with
      cmd := none
      created := true
      requests := w.requests ++ reqs
      onHost := w.onHost || w.createsBlob })
    (hchanged : w₂.Changed w' attached)
    (hattached : attached = w₂.attached ↔ w₂.AttachUndone env) : FailCase w env w' := by
  obtain ⟨reqs', rfl⟩ := hchanged
  subst hw₂
  refine .contexts c hmain (reqs ++ reqs') attached (fun data hdata => ?_) hreply hattached ?_
  · exact ⟨(hcmd data hdata).1, List.mem_append_left _ (hcmd data hdata).2⟩
  · simp

theorem new_of_create_error (hsubmit : w.submitCmd = (.ok (), w₁))
    (hcreate : w₁.create env = (.error e, w₂)) :
    w.new owned env = (.error e, w₂) := by
  simp [new, hsubmit, hcreate]

theorem new_of_contexts_error (hsubmit : w.submitCmd = (.ok (), w₁))
    (hcreate : w₁.create env = (.ok (), w₂)) (hcontexts : (w₂.attachContexts env).1 = .error e) :
    w.new owned env = (.error e, (w₂.attachContexts env).2) := by
  have hpair : w₂.attachContexts env = (.error e, (w₂.attachContexts env).2) :=
    Prod.ext hcontexts rfl
  rw [new, hsubmit]
  simp only [hcreate]
  rw [hpair]

theorem new_of_contexts_ok (hsubmit : w.submitCmd = (.ok (), w₁))
    (hcreate : w₁.create env = (.ok (), w₂)) (hcontexts : (w₂.attachContexts env).1 = .ok ()) :
    w.new owned env =
      (.ok ⟨owned, (w₂.attachContexts env).2.shadowVirgl⟩, (w₂.attachContexts env).2) := by
  have hpair : w₂.attachContexts env = (.ok (), (w₂.attachContexts env).2) :=
    Prod.ext hcontexts rfl
  rw [new, hsubmit]
  simp only [hcreate]
  rw [hpair]

theorem new_cases (hmain : w.main = some c) (owned : Bool) (env : AttachReplies) :
    (∃ e w', w.new owned env = (.error e, w') ∧ FailCase w env w') ∨
    ∃ d w', w.new owned env = (.ok d, w') ∧ FailCase w env (w'.dropSpecific d env) := by
  rcases submitCmd_cases hmain with ⟨data, hcmd, hlen, hsubmit⟩ | ⟨reqs, hsubmit, hcmd⟩
  · exact .inl ⟨_, _, by rw [new, hsubmit], .noHeader c hmain data hcmd hlen rfl⟩
  generalize hw₁ : { w with cmd := none, requests := w.requests ++ reqs } = w₁ at hsubmit
  have hmain₁ : w₁.main = some c := by rw [← hw₁, ← hmain]
  have hblob₁ : w₁.createsBlob = w.createsBlob := by rw [← hw₁]; rfl
  -- The requests of the first two steps.
  have hcmd' : ∀ reqs₂ : List HostRequest, ∀ data, w.cmd = some data →
      cmdSubmit3DSize ≤ data.length ∧
        .submit3d c.id (data.length - cmdSubmit3DSize) (data.drop cmdSubmit3DSize) ∈
          reqs ++ reqs₂ := fun reqs₂ data hdata =>
    ⟨(hcmd data hdata).1, List.mem_append_left _ (hcmd data hdata).2⟩
  rcases create_cases env hmain₁ with ⟨reqs₂, e, hblob, hreply, hcreate⟩ | ⟨reqs₂, hreply, hcreate⟩
  · refine .inl ⟨e, _, new_of_create_error hsubmit hcreate, ?_⟩
    refine .create c hmain (reqs ++ reqs₂) (hcmd' reqs₂) (hblob₁ ▸ hblob) hreply ?_
    simp [← hw₁]
  rw [hblob₁] at hreply
  generalize hw₂ : ({ w₁ with
    created := true
    requests := w₁.requests ++ reqs₂
    onHost := w₁.onHost || w₁.createsBlob } : AttachWorld) = w₂ at hcreate
  have hmain₂ : w₂.main = some c := by rw [← hw₂, ← hmain₁]
  have hw₂' : w₂ = { w with
      cmd := none
      created := true
      requests := w.requests ++ (reqs ++ reqs₂)
      onHost := w.onHost || w.createsBlob } := by
    rw [← hw₂, hblob₁]
    simp [← hw₁]
  cases hresult : (w₂.attachContexts env).1 with
  | error e =>
    obtain ⟨attached, hchanged, hiff⟩ := attachContexts_error hmain₂ hresult
    exact .inl ⟨e, _, new_of_contexts_error hsubmit hcreate hresult,
      .of_changed hmain (hcmd' reqs₂) hreply hw₂' hchanged hiff⟩
  | ok =>
    obtain ⟨attached, hchanged, hiff⟩ := dropSpecific_of_ok hmain₂ hresult owned
    exact .inr ⟨_, _, new_of_contexts_ok hsubmit hcreate hresult,
      .of_changed hmain (hcmd' reqs₂) hreply hw₂' hchanged hiff⟩

theorem attachToDevice_error (h : (w.attachToDevice owned env).1 = .error e) :
    FailCase w env (w.attachToDevice owned env).2 := by
  unfold attachToDevice at h ⊢
  cases hmain : w.main with
  | none => exact .noContext hmain rfl
  | some =>
    cases hexisting : w.existing with
    | some => simp [hmain, hexisting] at h
    | none =>
      simp only [hmain, hexisting] at h ⊢
      rcases new_cases hmain owned env with ⟨e, w', hnew, hfail⟩ | ⟨d, w', hnew, hfail⟩
      · rw [hnew]
        exact hfail
      · rw [hnew] at h ⊢
        cases hmemory : env.memory with
        | true => simp [hmemory] at h
        | false => simpa [hmemory] using hfail

theorem FailCase.rolledBack_iff (h : FailCase w env w') : w.RolledBack w' ↔ w.Harmless env := by
  cases h with
  | noContext hmain hw =>
    subst hw
    simp only [Harmless, hmain]
    exact ⟨fun hback => hback.created, fun hcreated => ⟨hcreated, fun data => .inl, rfl⟩⟩
  | noHeader c hmain data hcmd hlen hw =>
    subst hw
    refine iff_of_false (fun hback => ?_) fun hharmless => ?_
    · obtain hkept | ⟨context, reqs, hreqs, hmem⟩ := hback.cmd data hcmd
      · cases hkept
      · rw [List.self_eq_append_right.1 hreqs] at hmem
        cases hmem
    · simp only [Harmless, hmain] at hharmless
      exact absurd (hharmless.1 data hcmd) (not_le.2 hlen)
  | create c hmain reqs hcmd hblob hreply hw =>
    subst hw
    simp only [Harmless, hmain]
    constructor
    · intro hback
      refine ⟨fun data hdata => (hcmd data hdata).1, ?_, .inl ⟨hblob, hreply⟩⟩
      simpa [hblob] using hback.created rfl
    · rintro ⟨-, honHost, -⟩
      refine ⟨fun _ => ?_, fun data hdata => .inr ⟨c.id, reqs, rfl, (hcmd data hdata).2⟩, rfl⟩
      simpa [hblob] using honHost
  | contexts c hmain reqs attached hcmd hreply hattached hw =>
    subst hw
    simp only [Harmless, hmain]
    constructor
    · intro hback
      refine ⟨fun data hdata => (hcmd data hdata).1, ?_, .inr (hattached.1 hback.attached)⟩
      rcases Bool.or_eq_true_iff.1 (hback.created rfl) with honHost | hblob
      · exact .inl honHost
      · exact .inr ⟨hblob, by rw [hreply hblob]; rfl⟩
    · rintro ⟨-, honHost, hundone⟩
      refine ⟨fun _ => ?_, fun data hdata => .inr ⟨c.id, reqs, rfl, (hcmd data hdata).2⟩, ?_⟩
      · exact Bool.or_eq_true_iff.2 (honHost.imp_right And.left)
      · refine hattached.2 (hundone.resolve_left fun hrefused => ?_)
        exact hrefused.2 (hreply hrefused.1)

end AttachWorld

/-- A failed `ensure_virgl_attached` has set its flag, and the next call does nothing. -/
theorem DeviceSpecific.ensureVirglAttached_error {d d' : DeviceSpecific} {w w' : AttachWorld}
    {alloc device : Bool} {reply : HostReply} {e : NtStatus}
    (h : d.ensureVirglAttached w alloc device reply = .next (.error e, d', w')) :
    d'.virgl ≠ d.virgl ∧
      ∀ reply', d'.ensureVirglAttached w' true true reply' = .next (.ok (), d', w') := by
  unfold ensureVirglAttached at h
  split_ifs at h with halloc hdevice hvirgl hflag
  · cases h
  · cases h
  · obtain ⟨-, rfl, -⟩ : _ ∧ { d with virgl := true } = d' ∧ _ := by
      simpa only [Outcome.next.injEq, Prod.mk.injEq] using h
    refine ⟨fun heq => hflag heq.symm, fun reply' => ?_⟩
    simp [ensureVirglAttached]

/-- **What a failed attach leaves behind.**  If `attach_to_device` fails, everything is undone
exactly if the failure is harmless.  If `ensure_virgl_attached` fails, its flag is never as it was
before, and no later call attaches the resource. -/
theorem rolled_back_iff (w : AttachWorld) :
    (∀ (owned : Bool) (env : AttachReplies) (e : NtStatus),
      (w.attachToDevice owned env).1 = .error e →
        (w.RolledBack (w.attachToDevice owned env).2 ↔ w.Harmless env)) ∧
    ∀ (d d' : DeviceSpecific) (w' : AttachWorld) (alloc device : Bool) (reply : HostReply)
      (e : NtStatus), d.ensureVirglAttached w alloc device reply = .next (.error e, d', w') →
        d'.virgl ≠ d.virgl ∧
          ∀ reply', d'.ensureVirglAttached w' true true reply' = .next (.ok (), d', w') :=
  ⟨fun _ _ _ h => (AttachWorld.attachToDevice_error h).rolledBack_iff,
    fun _ _ _ _ _ _ _ h => DeviceSpecific.ensureVirglAttached_error h⟩

/-- A blob on a Venus device; it was created with a command without a body. -/
def newBlob : AttachWorld where
  id := 9
  resource := .blob 1 2 1 4096
  created := false
  cmd := some (List.replicate cmdSubmit3DSize 0)
  main := some ⟨1, .venus⟩
  blit := some ⟨2, .virgl2⟩
  existing := none
  requests := []
  onHost := false
  attached := []

/-- A 3D resource on the same device. -/
def new3d : AttachWorld :=
  { newBlob with resource := ._3d, created := true, cmd := none, onHost := true }

def allAccepted : AttachReplies := ⟨.accepted, .accepted, .accepted, true, .accepted, .accepted⟩

theorem rolled_back_iff_main_refuses :
    newBlob.RolledBack (newBlob.attachToDevice true { allAccepted with main := .refused }).2 ∧
    (∃ d', d'.virgl ≠ false ∧ DeviceSpecific.ensureVirglAttached ⟨true, false⟩ new3d true true
      .refused = .next (.error .ioDeviceError, d',
        { new3d with requests := [.attach 2 9] })) := by
  have hattach : (newBlob.attachToDevice true { allAccepted with main := .refused }).1 =
      .error .ioDeviceError := rfl
  refine ⟨((rolled_back_iff newBlob).1 _ _ _ hattach).2 ?_, ⟨true, true⟩, ?_, rfl⟩
  · refine ⟨fun data hdata => ?_, by decide, .inr (.inl rfl)⟩
    cases hdata
    decide
  · exact ((rolled_back_iff new3d).2 ⟨true, false⟩ ⟨true, true⟩ _ true true .refused _ rfl).1

/-- The host refuses to create a blob, and it counts as created.  The main context refuses a 3D
resource, and the context for blits keeps it.  The context for blits refuses it, and the destructor
leaves it attached to the main context. -/
theorem not_rolled_back :
    ¬ newBlob.RolledBack (newBlob.attachToDevice true { allAccepted with create := .refused }).2 ∧
    ¬ new3d.RolledBack (new3d.attachToDevice true { allAccepted with main := .refused }).2 ∧
    ∃ d' w', DeviceSpecific.ensureVirglAttached ⟨true, false⟩ { new3d with attached := [1] } true
      true .refused = .next (.error .ioDeviceError, d', w') ∧ d'.virgl = true ∧
        (w'.dropSpecific d' { allAccepted with detachVirgl := .refused }).attached = [1] := by
  refine ⟨fun hback => ?_, fun hback => ?_, _, _, rfl, rfl, rfl⟩
  · exact absurd (hback.created rfl) (by decide)
  · exact absurd hback.attached (by decide)

end VirtioGpu
