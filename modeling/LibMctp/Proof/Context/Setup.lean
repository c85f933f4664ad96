import LibMctp.Model.Context
import LibMctp.Proof.Base.Frame

/-!
# What a context leaves behind

Setting a context up takes three structures, and opening the device a handle and the storage of the
binding. A failed call gives the structures back, and so does `mctp_mmbi_context_destroy`. Neither
closes a handle, and no one frees the storage.
-/

namespace LibMctp

variable {δ : Type}

/-! ### Allocating and freeing -/

/-- The structures not freed have different names, which no later call gives again. -/
structure Resources.Ok (r : Resources) : Prop where
  nodup : r.blocks.Nodup
  lt : ∀ addr ∈ r.blocks, addr < r.nAlloc

section Alloc

variable {p : Platform} {r r' : Resources}

theorem mctpAlloc_cases (p : Platform) (r : Resources) :
    r.mctpAlloc p = ({ r with nAlloc := r.nAlloc + 1 }, none) ∨
      r.mctpAlloc p = ({ r with nAlloc := r.nAlloc + 1, blocks := r.blocks ++ [r.nAlloc] },
        some r.nAlloc) := by
  by_cases halloc : p.alloc r.nAlloc = true
  · exact .inr (if_pos halloc)
  · exact .inl (if_neg halloc)

theorem Resources.Ok.notMem (h : r.Ok) {addr : Nat} (haddr : r.nAlloc ≤ addr) :
    addr ∉ r.blocks := by
  intro hmem
  have hlt := h.lt addr hmem
  omega

theorem Resources.Ok.mctpFree_new (h : r.Ok) {addr : Nat} {rest : List Nat}
    (haddr : r.nAlloc ≤ addr) (hmem : addr ∈ rest) (hblocks : r'.blocks = r.blocks ++ rest) :
    r'.mctpFree addr = { r' with blocks := r.blocks ++ rest.erase addr } := by
  rw [Resources.mctpFree, if_pos (hblocks ▸ List.mem_append_right _ hmem), hblocks,
    List.erase_append_right _ (h.notMem haddr)]

theorem mctpFree_three (h : r.Ok) {storages : List Nat}
    (hblocks : r'.blocks = r.blocks ++ [r.nAlloc, r.nAlloc + 1, r.nAlloc + 2] ++ storages) :
    ((r'.mctpFree (r.nAlloc + 2)).mctpFree (r.nAlloc + 1)).mctpFree r.nAlloc
      = { r' with blocks := r.blocks ++ storages } := by
  rw [List.append_assoc] at hblocks
  have hsecond :
      r.nAlloc + 1 ∈ ([r.nAlloc, r.nAlloc + 1, r.nAlloc + 2] ++ storages).erase
      (r.nAlloc + 2) := by simp
  have hthird : r.nAlloc ∈ (([r.nAlloc, r.nAlloc + 1, r.nAlloc + 2] ++ storages).erase
      (r.nAlloc + 2)).erase (r.nAlloc + 1) := by
    simp
  rw [h.mctpFree_new (by omega) (by simp) hblocks, h.mctpFree_new (by omega) hsecond rfl,
    h.mctpFree_new le_rfl hthird rfl]
  simp

end Alloc

/-! ### Opening the device -/

/-- What opening the device came to: the storage it got, and the handles. -/
structure Opened (p : Platform) (o : Opening) (storages opened : List Nat) (o' : Opening) :
    Prop where
  blocks : o'.resources.blocks = o.resources.blocks ++ storages
  badFrees : o'.resources.badFrees = o.resources.badFrees
  handles : o'.resources.handles = o.resources.handles ++ opened
  opens : ∀ n ∈ opened, p.opens n = true
  one : storages.length ≤ 1
  storage : o'.binding.txStorage = !storages.isEmpty
  handle : o'.mmbi.deviceHandle = (o.mmbi.deviceHandle || !opened.isEmpty)
  held : storages ≠ [] → opened ≠ []
  names : ∀ addr ∈ storages, o.resources.nAlloc ≤ addr ∧ addr < o'.resources.nAlloc
  counts : o.resources.nAlloc ≤ o'.resources.nAlloc
  binding : o'.binding = { o.binding with txStorage := o'.binding.txStorage }

section Opening

variable {p : Platform} {o : Opening}

theorem initDevice_cases (p : Platform) (o : Opening) (hstorage : o.binding.txStorage = false) :
    (o.initDevice p).2 = -1 ∧ Opened p o [] [] (o.initDevice p).1 ∨
      (o.initDevice p).2 = -enomem ∧ Opened p o [] [o.resources.nOpen] (o.initDevice p).1 ∨
      (o.initDevice p).2 = 0 ∧
        Opened p o [o.resources.nAlloc] [o.resources.nOpen] (o.initDevice p).1 := by
  obtain ⟨r, binding, mmbi⟩ := o
  have hsame : binding = { binding with txStorage := false } := by rw [← hstorage]
  unfold Opening.initDevice
  dsimp only
  cases hopens : p.opens r.nOpen with
  | false =>
      refine .inl ⟨rfl, ?_⟩
      exact ⟨by simp, rfl, by simp, by simp, by simp, hstorage,
        by simp [mctpMmbiInitDevice], by simp, by simp, le_rfl, rfl⟩
  | true =>
      have hall : ∀ n ∈ [r.nOpen], p.opens n = true := by simp [hopens]
      rcases mctpAlloc_cases p
        { r with nOpen := r.nOpen + 1, handles := r.handles ++ [r.nOpen] } with hnone | hsome
      · rw [if_pos rfl, hnone]
        refine .inr (.inl ⟨rfl, ?_⟩)
        exact ⟨by simp, rfl, rfl, hall, by simp, rfl,
          by simp [mctpMmbiInitDevice], by simp, by simp, Nat.le_succ _, rfl⟩
      · rw [if_pos rfl, hsome]
        refine .inr (.inr ⟨rfl, ?_⟩)
        exact ⟨rfl, rfl, rfl,
          hall, by simp, rfl, by simp [mctpMmbiInitDevice], by simp, by simp, Nat.le_succ _, rfl⟩

theorem Opened.trans {o' o'' : Opening} {opened storages opened' : List Nat}
    (h : Opened p o [] opened o') (h' : Opened p o' storages opened' o'') :
    Opened p o storages (opened ++ opened') o'' where
  blocks := by rw [h'.blocks, h.blocks, List.append_nil]
  badFrees := h'.badFrees.trans h.badFrees
  handles := by rw [h'.handles, h.handles, List.append_assoc]
  opens := by
    intro n hn
    rw [List.mem_append] at hn
    exact hn.elim (h.opens n) (h'.opens n)
  one := h'.one
  storage := h'.storage
  handle := by
    rw [h'.handle, h.handle]
    cases opened <;> simp
  held := fun hne => List.append_ne_nil_of_right_ne_nil _ (h'.held hne)
  names := fun addr haddr => ⟨h.counts.trans (h'.names addr haddr).1, (h'.names addr haddr).2⟩
  counts := h.counts.trans h'.counts
  binding := by
    rw [h'.binding, h.binding]

theorem Opened.refl (p : Platform) {o : Opening} (hstorage : o.binding.txStorage = false) :
    Opened p o [] [] o :=
  ⟨by simp, rfl, by simp, by simp, by simp, hstorage, by simp, by simp, by simp, le_rfl, rfl⟩

/-- **All attempts together.** An attempt that fails for want of storage leaves its handle. -/
theorem retry_opened (p : Platform) (retries : Nat) (o : Opening)
    (hstorage : o.binding.txStorage = false) :
    ∃ storages opened, Opened p o storages opened (o.retry p retries) := by
  induction retries generalizing o with
  | zero => exact ⟨[], [], .refl p hstorage⟩
  | succ retries ih =>
      rw [Opening.retry]
      dsimp only
      rcases initDevice_cases p o hstorage with ⟨hrc, hopened⟩ | ⟨hrc, hopened⟩ | ⟨hrc, hopened⟩ <;>
        rw [hrc]
      · obtain ⟨storages, opened, hrest⟩ := ih _ hopened.storage
        exact ⟨storages, _, hopened.trans hrest⟩
      · obtain ⟨storages, opened, hrest⟩ := ih _ hopened.storage
        exact ⟨storages, _, hopened.trans hrest⟩
      · exact ⟨_, _, hopened⟩

end Opening

/-! ### Contexts -/

section Init

variable {openDevice : Opening → Opening × Bool} {env : Env (MctpBindingMmbi × δ)} {p : Platform}
  {r r' : Resources} {now : Nat}
  {dev : δ} {eid : UInt8} {ctx : MctpMmbiContext δ}

def Resources.threeBlocks (r : Resources) : Resources :=
  { r with nAlloc := r.nAlloc + 3, blocks := r.blocks ++ [r.nAlloc, r.nAlloc + 1, r.nAlloc + 2] }

/-- The instance of a context whose device was opened. -/
def contextMctp (env : Env (MctpBindingMmbi × δ)) (o : Opening) (now : Nat) (dev : δ)
    (eid : UInt8) : Mctp (MctpBindingMmbi × δ) :=
  mctpSetRxAll
    (mctpBindingSetTxEnabled env
      (mctpRegisterBus env (mctpSetup (fun _ => o.binding) now (o.mmbi, dev)) 0 eid).1 0 true)

def newContext (env : Env (MctpBindingMmbi × δ)) (r : Resources) (o : Opening) (now : Nat) (dev : δ)
    (eid : UInt8) : MctpMmbiContext δ where
  addr := r.nAlloc
  mctpAddr := r.nAlloc + 1
  mmbiAddr := r.nAlloc + 2
  mctp := contextMctp env o now dev eid

/-- What a call without a context leaves: no structure, and the handles it opened. -/
structure Undone (r : Resources) (opened : List Nat) (r' : Resources) : Prop where
  blocks : r'.blocks = r.blocks
  badFrees : r'.badFrees = r.badFrees
  handles : r'.handles = r.handles ++ opened
  counts : r.nAlloc ≤ r'.nAlloc

/-- Before the device is opened a failure takes back what it allocated. -/
theorem contextInit_cases (openDevice : Opening → Opening × Bool) (env : Env (MctpBindingMmbi × δ))
    (p : Platform) (hr : r.Ok)
    (now : Nat) (dev : δ) (eid : UInt8) :
    (∃ r', contextInit openDevice env p r now dev eid = (r', none) ∧ Undone r [] r') ∨
      contextInit openDevice env p r now dev eid
        = match openDevice ⟨r.threeBlocks, mctpMmbiInit, {}⟩ with
          | (o, false) =>
            (((o.resources.mctpFree (r.nAlloc + 2)).mctpFree (r.nAlloc + 1)).mctpFree r.nAlloc,
              none)
          | (o, true) => (o.resources, some (newContext env r o now dev eid)) := by
  unfold contextInit
  rcases mctpAlloc_cases p r with h₁ | h₁ <;> rw [h₁] <;> dsimp only
  · exact .inl ⟨_, rfl, rfl, rfl, (List.append_nil _).symm, Nat.le_add_right _ 1⟩
  · rcases mctpAlloc_cases p
      { r with nAlloc := r.nAlloc + 1, blocks := r.blocks ++ [r.nAlloc] } with h₂ | h₂ <;>
      rw [h₂] <;> dsimp only
    · rw [hr.mctpFree_new le_rfl (List.mem_singleton_self _) rfl]
      exact .inl ⟨_, rfl, by simp, rfl, (List.append_nil _).symm, Nat.le_add_right _ 2⟩
    · rcases mctpAlloc_cases p
          { r with
            nAlloc := r.nAlloc + 1 + 1
            blocks := r.blocks ++ [r.nAlloc] ++ [r.nAlloc + 1] } with h₃ | h₃ <;>
        rw [h₃] <;> dsimp only
      · have hsecond : r.nAlloc + 1 ∈ [r.nAlloc] ++ [r.nAlloc + 1] := by simp
        have hfirst : r.nAlloc ∈ ([r.nAlloc] ++ [r.nAlloc + 1]).erase (r.nAlloc + 1) := by simp
        rw [hr.mctpFree_new (by omega) hsecond (List.append_assoc _ _ _),
          hr.mctpFree_new le_rfl hfirst rfl]
        exact .inl ⟨_, rfl, by simp, rfl, (List.append_nil _).symm, Nat.le_add_right _ 3⟩
      · refine .inr ?_
        have hthree : ({ r with
            nAlloc := r.nAlloc + 1 + 1 + 1
            blocks := r.blocks ++ [r.nAlloc] ++ [r.nAlloc + 1] ++ [r.nAlloc + 1 + 1] } : Resources)
          = r.threeBlocks := by
          simp [Resources.threeBlocks]
        rw [hthree]
        rfl

/-- What an init call left of the resources, and what remains of that once the context is
destroyed. -/
structure InitLeaves (p : Platform) (r : Resources) (storages opened : List Nat) (r' : Resources)
    (ctx : MctpMmbiContext δ) : Prop where
  one : storages.length ≤ 1
  some : opened ≠ []
  opens : ∀ n ∈ opened, p.opens n = true
  names : ∀ addr ∈ storages, r.nAlloc ≤ addr ∧ addr < r'.nAlloc
  counts : r.nAlloc ≤ r'.nAlloc
  badFrees : r'.badFrees = r.badFrees
  handles : r'.handles = r.handles ++ opened
  given : r'.blocks = r.blocks ++ [ctx.addr, ctx.mctpAddr, ctx.mmbiAddr] ++ storages
  asserts : .assertTxStorage ∈ ctx.mctp.hist.faults ↔ storages = []
  destroyed : ∀ ctx' : MctpMmbiContext δ, ctx'.addr = ctx.addr → ctx'.mctpAddr = ctx.mctpAddr →
    ctx'.mmbiAddr = ctx.mmbiAddr →
    (mctpMmbiContextDestroy r' ctx').1 = { r' with blocks := r.blocks ++ storages }

/-- The instance before it was given a handler: registered, and enabled by the start of the
binding. -/
def contextBus (o : Opening) (now : Nat) (dev : δ) (eid : UInt8) : Mctp (MctpBindingMmbi × δ) :=
  let w := (mctpSetup (fun _ => o.binding) now (o.mmbi, dev)).initBus 0 eid
  w.setBus 0 { w.busses 0 with state := .txEnabled }

/-- The binding enables the bus when it is started, and the context has nothing left to enable. -/
theorem contextMctp_eq (port : MmbiPort δ) (msgAlloc pktAlloc : Nat → Bool) {o : Opening}
    (now : Nat) (dev : δ) (eid : UInt8) (hsize : mctpPacketSize mctpBtu ≤ o.binding.pktSize) :
    contextMctp (mmbiEnv port msgAlloc pktAlloc) o now dev eid
      = mctpSetRxAll (contextBus o now dev eid) := by
  have hsetup : ∀ w : Mctp (MctpBindingMmbi × δ), w
    = (mctpSetup (fun _ => o.binding) now (o.mmbi, dev)).initBus 0 eid →
      mctpBindingSetTxEnabled (mmbiEnv port msgAlloc pktAlloc) w 0 true
        = contextBus o now dev eid := by
    rintro w rfl
    unfold mctpBindingSetTxEnabled
    exact if_neg (not_lt.mpr hsize)
  have hstart : bindingStart (mmbiEnv port msgAlloc pktAlloc)
    ((mctpSetup (fun _ => o.binding) now (o.mmbi, dev)).initBus 0 eid) 0
      = (contextBus o now dev eid, 0) := by
    rw [← hsetup _ rfl]
    rfl
  have hregister : mctpRegisterBus (mmbiEnv port msgAlloc pktAlloc)
    (mctpSetup (fun _ => o.binding) now (o.mmbi, dev)) 0 eid
      = (contextBus o now dev eid, 0) := by
    unfold mctpRegisterBus
    rw [hstart]
    rfl
  have hagain : mctpBindingSetTxEnabled (mmbiEnv port msgAlloc pktAlloc)
    (contextBus o now dev eid) 0 true
      = contextBus o now dev eid := rfl
  unfold contextMctp
  rw [hregister]
  exact congrArg mctpSetRxAll hagain

theorem contextMctp_asserts {port : MmbiPort δ} {msgAlloc pktAlloc : Nat → Bool}
    {storages opened : List Nat} {r : Resources} {o : Opening}
    (hopened : Opened p ⟨r, mctpMmbiInit, {}⟩ storages opened o) :
    .assertTxStorage ∈ (contextMctp (mmbiEnv port msgAlloc pktAlloc) o now dev eid).hist.faults ↔
      storages = [] := by
  have hstorage := hopened.storage
  have hsize : mctpPacketSize mctpBtu ≤ o.binding.pktSize := by
    rw [hopened.binding]
    exact (by decide : mctpPacketSize mctpBtu ≤ mctpMmbiInit.pktSize)
  have hfaults : (contextMctp (mmbiEnv port msgAlloc pktAlloc) o now dev eid).hist.faults
      = ((({} : History).assert true .assertBusses).assert o.binding.txStorage
        .assertTxStorage).faults := by
    rw [contextMctp_eq port msgAlloc pktAlloc now dev eid hsize]
    rfl
  rw [hfaults, hstorage]
  cases storages with
  | nil => simp [History.assert, History.fault]
  | cons addr storages => simp [History.assert]

theorem initLeaves (hr : r.Ok) {storages opened : List Nat} {o : Opening} {port : MmbiPort δ}
    {msgAlloc pktAlloc : Nat → Bool}
    (hopened : Opened p ⟨r.threeBlocks, mctpMmbiInit, {}⟩ storages opened o) (hne : opened ≠ []) :
    InitLeaves p r storages opened o.resources
      (newContext (mmbiEnv port msgAlloc pktAlloc) r o now dev eid) where
  one := hopened.one
  some := hne
  opens := hopened.opens
  names := by
    intro addr haddr
    obtain ⟨hlow, hhigh⟩ := hopened.names addr haddr
    dsimp only [Resources.threeBlocks] at hlow
    omega
  counts := by
    have hcounts := hopened.counts
    dsimp only [Resources.threeBlocks] at hcounts
    omega
  badFrees := hopened.badFrees
  handles := hopened.handles
  given := hopened.blocks
  asserts := contextMctp_asserts hopened
  destroyed := by
    intro ctx' haddr hmctp hmmbi
    dsimp only [mctpMmbiContextDestroy]
    rw [haddr, hmctp, hmmbi]
    exact mctpFree_three hr hopened.blocks

theorem undone_of_opened (hr : r.Ok) {opened : List Nat} {o : Opening}
    (hopened : Opened p ⟨r.threeBlocks, mctpMmbiInit, {}⟩ [] opened o) :
    Undone r opened
      (((o.resources.mctpFree (r.nAlloc + 2)).mctpFree (r.nAlloc + 1)).mctpFree r.nAlloc) := by
  rw [mctpFree_three hr hopened.blocks]
  exact ⟨List.append_nil _, hopened.badFrees, hopened.handles,
    (Nat.le_add_right _ 3).trans hopened.counts⟩

/-- A context is kept where any attempt opened the device. -/
theorem mctpMmbiContextInit_leaves (port : MmbiPort δ) (msgAlloc pktAlloc : Nat → Bool)
    (p : Platform) (hr : r.Ok) (now : Nat) (dev : δ) (eid : UInt8) :
    (∃ r', mctpMmbiContextInit (mmbiEnv port msgAlloc pktAlloc) p r now dev eid = (r', none) ∧
      Undone r [] r') ∨
      ∃ r' ctx storages opened, mctpMmbiContextInit (mmbiEnv port msgAlloc pktAlloc) p r now dev eid
        = (r', some ctx) ∧
        InitLeaves p r storages opened r' ctx := by
  unfold mctpMmbiContextInit
  rcases contextInit_cases (fun o => ((o.retry p 5), (o.retry p 5).mmbi.deviceHandle))
    (mmbiEnv port msgAlloc pktAlloc) p hr now dev eid with hnone | hinit
  · exact .inl hnone
  · obtain ⟨storages, opened, hopened⟩ := retry_opened p 5 ⟨r.threeBlocks, mctpMmbiInit, {}⟩ rfl
    dsimp only at hinit ⊢
    rw [hinit]
    have hhandle := hopened.handle
    dsimp only at hhandle
    rw [Bool.false_or] at hhandle
    cases opened with
    | nil =>
        rw [hhandle]
        have hstorages : storages = [] := by
          by_contra hne
          exact hopened.held hne rfl
        subst hstorages
        exact .inl ⟨_, rfl, undone_of_opened hr hopened⟩
    | cons n opened =>
        rw [hhandle]
        exact .inr ⟨_, _, storages, n :: opened, rfl, initLeaves hr hopened (List.cons_ne_nil _ _)⟩

/-- A transport is kept where its one attempt got the storage as well. Where it did not, the handle
stays open. -/
theorem mctpTransportInit_leaves (port : MmbiPort δ) (msgAlloc pktAlloc : Nat → Bool) (p : Platform)
    (hr : r.Ok) (now : Nat) (dev : δ) (eid : UInt8) :
    (∃ r' opened, mctpTransportInit (mmbiEnv port msgAlloc pktAlloc) p r now dev eid = (r', none) ∧
      Undone r opened r') ∨
      ∃ r' ctx storage opened, mctpTransportInit (mmbiEnv port msgAlloc pktAlloc) p r now dev eid
        = (r', some ctx) ∧
        InitLeaves p r [storage] opened r' ctx := by
  unfold mctpTransportInit
  rcases contextInit_cases (fun o => ((o.initDevice p).1, decide ((o.initDevice p).2 = 0)))
    (mmbiEnv port msgAlloc pktAlloc) p hr now dev eid with ⟨r', hnone, hundone⟩ | hinit
  · exact .inl ⟨r', [], hnone, hundone⟩
  · dsimp only at hinit ⊢
    rw [hinit]
    rcases initDevice_cases p ⟨r.threeBlocks, mctpMmbiInit, {}⟩
      rfl with ⟨hrc, hopened⟩ | ⟨hrc, hopened⟩ | ⟨hrc, hopened⟩ <;> rw [hrc]
    · exact .inl ⟨_, _, rfl, undone_of_opened hr hopened⟩
    · exact .inl ⟨_, _, rfl, undone_of_opened hr hopened⟩
    · exact .inr ⟨_, _, _, _, rfl, initLeaves hr hopened (List.cons_ne_nil _ _)⟩

theorem mctpTransportInit_some {port : MmbiPort δ} {msgAlloc pktAlloc : Nat → Bool} (hr : r.Ok)
    (h : (mctpTransportInit (mmbiEnv port msgAlloc pktAlloc) p r now dev eid).2 = some ctx) :
    ∃ o, o.mmbi.deviceHandle = true ∧ o.binding = { mctpMmbiInit with txStorage := true } ∧
      ctx = newContext (mmbiEnv port msgAlloc pktAlloc) r o now dev eid := by
  unfold mctpTransportInit at h
  rcases contextInit_cases (fun o => ((o.initDevice p).1, decide ((o.initDevice p).2 = 0)))
    (mmbiEnv port msgAlloc pktAlloc) p hr now dev eid with ⟨r', hnone, -⟩ | hinit
  · rw [hnone] at h
    cases h
  · dsimp only at hinit h
    rw [hinit] at h
    rcases initDevice_cases p ⟨r.threeBlocks, mctpMmbiInit, {}⟩
      rfl with ⟨hrc, -⟩ | ⟨hrc, -⟩ | ⟨hrc, hopened⟩ <;> rw [hrc] at h
    · cases h
    · cases h
    · refine ⟨_, hopened.handle, ?_, (Option.some.inj h).symm⟩
      have hbinding := hopened.binding
      rw [hopened.storage] at hbinding
      exact hbinding

end Init

/-! ### Sessions -/

inductive ContextOp where
  | send (dstEid : UInt8) (data : List UInt8)
  | poll
  | setRxCallback (cb : Option Nat)

def contextStep (env : Env (MctpBindingMmbi × δ)) (port : MmbiPort δ) (ctx : MctpMmbiContext δ) :
    ContextOp → MctpMmbiContext δ
  | .send dstEid data => (mctpMmbiSend env ctx dstEid data).1
  | .poll => (mctpMmbiContextPoll env port ctx).1
  | .setRxCallback cb => mctpMmbiSetRxCallback ctx cb

def MctpMmbiContext.addrs (ctx : MctpMmbiContext δ) : Nat × Nat × Nat :=
  (ctx.addr, ctx.mctpAddr, ctx.mmbiAddr)

theorem mmbiInternalRx_addrs (ctx : MctpMmbiContext δ) (calls : List Upcall) :
    (calls.foldl mmbiInternalRx ctx).addrs = ctx.addrs := by
  induction calls generalizing ctx with
  | nil => rfl
  | cons call calls ih =>
      rw [List.foldl_cons, ih]
      unfold mmbiInternalRx
      split
      · split
        · rfl
        · rfl
      · rfl

theorem contextRun_addrs (env : Env (MctpBindingMmbi × δ)) (port : MmbiPort δ)
    (ctx : MctpMmbiContext δ) (ops : List ContextOp) :
    (ops.foldl (contextStep env port) ctx).addrs = ctx.addrs := by
  induction ops generalizing ctx with
  | nil => rfl
  | cons op ops ih =>
      rw [List.foldl_cons, ih]
      cases op with
      | send dstEid data => rfl
      | poll => exact mmbiInternalRx_addrs _ _
      | setRxCallback cb => rfl

inductive ContextApi where
  | mmbi
  | transport

/-- A context that is set up through one of the interfaces, used, and destroyed. -/
structure Session (δ : Type) where
  api : ContextApi
  now : Nat
  dev : δ
  eid : UInt8
  ops : List ContextOp

def Session.init (env : Env (MctpBindingMmbi × δ)) (p : Platform) (r : Resources) (s : Session δ) :
    Resources × Option (MctpMmbiContext δ) :=
  match s.api with
  | .mmbi => mctpMmbiContextInit env p r s.now s.dev s.eid
  | .transport => mctpTransportInit env p r s.now s.dev s.eid

def Session.destroy (s : Session δ) (r : Resources) (ctx : MctpMmbiContext δ) :
    Resources × Mctp (MctpBindingMmbi × δ) :=
  match s.api with
  | .mmbi => mctpMmbiContextDestroy r ctx
  | .transport => mctpTransportDestroy r ctx

/-- One session. The count is of the contexts whose binding had its storage when it was
registered. -/
def sessionStep (env : Env (MctpBindingMmbi × δ)) (port : MmbiPort δ) (p : Platform)
    (st : Resources × Nat) (s : Session δ) : Resources × Nat :=
  match s.init env p st.1 with
  | (r, none) => (r, st.2)
  | (r, some ctx) =>
    ((s.destroy r (s.ops.foldl (contextStep env port) ctx)).1,
      if .assertTxStorage ∈ ctx.mctp.hist.faults then st.2 else st.2 + 1)

section Sessions

variable {port : MmbiPort δ} {msgAlloc pktAlloc : Nat → Bool} {p : Platform} {r : Resources}

/-- What is left behind: structures without a name given twice, and handles. No structure was freed
in vain. -/
structure LeftBehind (r : Resources) (storages opened : List Nat) (r' : Resources) : Prop where
  ok : r'.Ok
  blocks : r'.blocks = r.blocks ++ storages
  badFrees : r'.badFrees = r.badFrees
  handles : r'.handles = r.handles ++ opened
  le : storages.length ≤ opened.length

theorem Resources.Ok.append (h : r.Ok) {r' : Resources} {storages : List Nat}
    (hone : storages.length ≤ 1) (hnames : ∀ addr ∈ storages, r.nAlloc ≤ addr ∧ addr < r'.nAlloc)
    (hcounts : r.nAlloc ≤ r'.nAlloc) (hblocks : r'.blocks = r.blocks ++ storages) : r'.Ok where
  nodup := by
    rw [hblocks, List.nodup_append]
    refine ⟨h.nodup, ?_, ?_⟩
    · match storages, hone with
      | [], _ => exact List.nodup_nil
      | [addr], _ => exact List.nodup_singleton addr
    · rintro addr haddr addr' haddr' rfl
      exact h.notMem (hnames addr haddr').1 haddr
  lt := by
    intro addr haddr
    rw [hblocks, List.mem_append] at haddr
    rcases haddr with haddr | haddr
    · exact (h.lt addr haddr).trans_le hcounts
    · exact (hnames addr haddr).2

theorem InitLeaves.session {storages opened : List Nat} {r' : Resources} {ctx : MctpMmbiContext δ}
    (h : InitLeaves p r storages opened r' ctx) (hr : r.Ok) (env : Env (MctpBindingMmbi × δ))
    (s : Session δ) :
    LeftBehind r storages opened (s.destroy r' (s.ops.foldl (contextStep env port) ctx)).1 := by
  obtain ⟨haddr, haddrs⟩ := Prod.mk.inj (contextRun_addrs env port ctx s.ops)
  obtain ⟨hmctp, hmmbi⟩ := Prod.mk.inj haddrs
  have hdestroyed : (s.destroy r' (s.ops.foldl (contextStep env port) ctx)).1
      = { r' with blocks := r.blocks ++ storages } := by
    have hcall := h.destroyed _ haddr hmctp hmmbi
    unfold Session.destroy
    cases s.api with
    | mmbi => exact hcall
    | transport => exact hcall
  rw [hdestroyed]
  refine ⟨hr.append h.one h.names h.counts rfl, rfl, h.badFrees, h.handles, ?_⟩
  have hone := h.one
  have hpos := List.length_pos_of_ne_nil h.some
  omega

variable (port msgAlloc pktAlloc p) in
/-- **One session.** -/
theorem sessionStep_leftBehind (st : Resources × Nat) (hr : st.1.Ok) (s : Session δ) :
    ∃ storages opened, LeftBehind st.1 storages opened
      (sessionStep (mmbiEnv port msgAlloc pktAlloc) port p st s).1 ∧
      (sessionStep (mmbiEnv port msgAlloc pktAlloc) port p st s).2 = st.2 + storages.length := by
  have hsome : ∀ {r' ctx storages opened}, s.init (mmbiEnv port msgAlloc pktAlloc) p st.1
    = (r', some ctx) →
      InitLeaves p st.1 storages opened r' ctx → ∃ storages opened,
        LeftBehind st.1 storages opened
        (sessionStep (mmbiEnv port msgAlloc pktAlloc) port p st s).1 ∧
          (sessionStep (mmbiEnv port msgAlloc pktAlloc) port p st s).2
            = st.2 + storages.length := by
    intro r' ctx storages opened hinit hleaves
    refine ⟨storages, opened, ?_, ?_⟩
    · rw [sessionStep, hinit]
      exact hleaves.session hr _ s
    · rw [sessionStep, hinit]
      have hone := hleaves.one
      by_cases hassert : .assertTxStorage ∈ ctx.mctp.hist.faults
      · rw [hleaves.asserts.mp hassert]
        exact if_pos hassert
      · have hpos := List.length_pos_of_ne_nil (mt hleaves.asserts.mpr hassert)
        rw [show storages.length = 1 by omega]
        exact if_neg hassert
  have hnone : ∀ {r' opened}, s.init (mmbiEnv port msgAlloc pktAlloc) p st.1 = (r', none) →
    Undone st.1 opened r' →
      ∃ storages opened, LeftBehind st.1 storages opened
        (sessionStep (mmbiEnv port msgAlloc pktAlloc) port p st s).1 ∧
          (sessionStep (mmbiEnv port msgAlloc pktAlloc) port p st s).2
            = st.2 + storages.length := by
    intro r' opened hinit hundone
    refine ⟨[], opened, ?_, ?_⟩
    · rw [sessionStep, hinit]
      have hblocks : r'.blocks = st.1.blocks ++ [] := hundone.blocks.trans (List.append_nil _).symm
      exact ⟨hr.append (Nat.zero_le _) (by simp) hundone.counts hblocks, hblocks,
        hundone.badFrees, hundone.handles, Nat.zero_le _⟩
    · rw [sessionStep, hinit]
      rfl
  cases hapi : s.api with
  | mmbi =>
      have hinit : s.init (mmbiEnv port msgAlloc pktAlloc) p st.1
          = mctpMmbiContextInit (mmbiEnv port msgAlloc
            pktAlloc) p st.1 s.now s.dev s.eid := by rw [Session.init, hapi]
      rcases mctpMmbiContextInit_leaves port msgAlloc pktAlloc p hr s.now s.dev s.eid with
        ⟨r', hcall, hundone⟩ | ⟨r', ctx, storages, opened, hcall, hleaves⟩
      · exact hnone (hinit.trans hcall) hundone
      · exact hsome (hinit.trans hcall) hleaves
  | transport =>
      have hinit : s.init (mmbiEnv port msgAlloc pktAlloc) p st.1
          = mctpTransportInit (mmbiEnv port msgAlloc
            pktAlloc) p st.1 s.now s.dev s.eid := by rw [Session.init, hapi]
      rcases mctpTransportInit_leaves port msgAlloc pktAlloc p hr s.now s.dev s.eid with
        ⟨r', opened, hcall, hundone⟩ | ⟨r', ctx, storage, opened, hcall, hleaves⟩
      · exact hnone (hinit.trans hcall) hundone
      · exact hsome (hinit.trans hcall) hleaves

/-- **What sessions leave behind.** Through either interface, and whatever fails, a session that
gets its context leaves one structure behind, the storage of its binding, and at least one handle; a
session without a context leaves no structure. No structure is given back that is not there. -/
theorem sessionRun_leftBehind (port : MmbiPort δ) (msgAlloc pktAlloc : Nat → Bool) (p : Platform)
    (sessions : List (Session δ)) :
    let after := sessions.foldl (sessionStep (mmbiEnv port msgAlloc pktAlloc) port p) ({}, 0)
    after.1.blocks.length = after.2 ∧ after.1.blocks.Nodup ∧ after.1.badFrees = [] ∧
      after.2 ≤ after.1.handles.length := by
  intro after
  have hrun : after.1.Ok ∧ after.1.blocks.length = after.2 ∧ after.1.badFrees = [] ∧
      after.2 ≤ after.1.handles.length := by
    induction sessions using List.reverseRecOn with
    | nil => exact ⟨⟨List.nodup_nil, fun _ hmem => absurd hmem List.not_mem_nil⟩, rfl, rfl, le_rfl⟩
    | append_singleton sessions s ih =>
        obtain ⟨hok, hcount, hfrees, hhandles⟩ := ih
        have hafter : after = sessionStep (mmbiEnv port msgAlloc pktAlloc) port p _ s :=
          List.foldl_concat ..
        obtain ⟨storages, opened, hleft, hnext⟩ :=
          sessionStep_leftBehind port msgAlloc pktAlloc p _ hok s
        have hle := hleft.le
        rw [hafter]
        refine ⟨hleft.ok, ?_, hleft.badFrees.trans hfrees, ?_⟩
        · rw [hleft.blocks, hnext, List.length_append, hcount]
        · rw [hleft.handles, hnext, List.length_append]
          omega
  exact ⟨hrun.2.1, hrun.1.nodup, hrun.2.2⟩

end Sessions

end LibMctp
