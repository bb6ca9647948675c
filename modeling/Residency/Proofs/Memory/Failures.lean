import Residency.Proofs.Memory.Safety
import Residency.Proofs.Memory.Waiting

/-!
# Calls that fail

A call that cannot map a page leaves no trace: `failed_call_leaves_no_trace`.  The frames and the
page tables are what they were, and whatever is called afterwards, also on the allocator itself,
is answered as if the call had not been made.

The allocator need not be what it was, since a page that was never out may have been handed out and
given back.  It is `PageAllocator.Alike`, and every call keeps two memories `MappedMemory.Alike`
that are so in their allocators and equal in all else but the bytes of pages.
-/

namespace Residency

/-! ## Frame tables -/

namespace FrameTable

/-- The same frames and the same warnings, over allocators that are alike. -/
structure Alike (a b : FrameTable) : Prop where
  allocator : a.allocator.Alike b.allocator
  frames : a.frames = b.frames
  warnings : a.warnings = b.warnings

/-- Frame tables that are alike, with one page table. -/
def AlikeWith (a b : FrameTable × PageTable) : Prop :=
  a.1.Alike b.1 ∧ a.2 = b.2

variable {a b : FrameTable} {s t : FrameTable × PageTable} {α : Type}

namespace Alike

theorem frame? (alike : a.Alike b) (page : PhysPage) : a.frame? page = b.frame? page := by
  rw [FrameTable.frame?, FrameTable.frame?, alike.frames]

theorem warn (alike : a.Alike b) (warning : FrameWarning) :
    (a.warn warning).Alike (b.warn warning) :=
  ⟨alike.allocator, alike.frames, congrArg (warning :: ·) alike.warnings⟩

theorem setFrame (alike : a.Alike b) (frame : Frame) :
    (a.setFrame frame).Alike (b.setFrame frame) :=
  ⟨alike.allocator, congrArg (·.insert frame.page frame) alike.frames, alike.warnings⟩

theorem eraseFrame (alike : a.Alike b) (page : PhysPage) :
    (a.eraseFrame page).Alike (b.eraseFrame page) :=
  ⟨alike.allocator, congrArg (·.erase page) alike.frames, alike.warnings⟩

theorem track (alike : a.Alike b) (page : PhysPage) (entry : EntryAddr) :
    (a.track page entry).Alike (b.track page entry) := by
  have sameEntries : a.references page = b.references page := by
    rw [references, references, alike.frame?]
  simp only [FrameTable.track, sameEntries]
  by_cases listed : (b.references page).contains entry = true
  · rw [if_pos listed, if_pos listed]
    exact alike
  · rw [if_neg listed, if_neg listed]
    exact alike.setFrame _

theorem onAllocator (alike : a.Alike b) {step : Step PageAllocator α}
    (agree : Step.Agree PageAllocator.Alike step step a.allocator b.allocator) :
    Step.Agree Alike (onAllocator step) (onAllocator step) a b :=
  agree.on fun _ _ alikeAfter => ⟨alikeAfter, alike.frames, alike.warnings⟩

/-- Releasing looks at the frames, which are the same, and at the allocator only to give back a
page. -/
theorem release (alike : a.Alike b) (pages : PageTable) (entry : EntryAddr) :
    Step.Agree Alike (release pages entry) (release pages entry) a b := by
  apply Step.Agree.get
  cases pages.pageOf entry with
  | none => exact Step.Agree.set (alike.warn _)
  | some page =>
    simp only [alike.frame?]
    cases b.frame? page with
    | none => exact Step.Agree.set (alike.warn _)
    | some frame =>
      simp only
      cases frame.remove? entry with
      | none => exact Step.Agree.set (alike.warn _)
      | some rest =>
        simp only
        split
        · refine (Step.Agree.set (alike.eraseFrame page)).bind fun _ a' b' alike' => ?_
          exact alike'.onAllocator (alike'.allocator.free page)
        · exact Step.Agree.set (alike.setFrame rest)

end Alike

theorem AlikeWith.onFrames (alike : AlikeWith s t) {step : Step FrameTable α}
    (agree : Step.Agree Alike step step s.1 t.1) :
    Step.Agree AlikeWith (onFrames step) (onFrames step) s t :=
  agree.on fun _ _ alikeAfter => ⟨alikeAfter, alike.2⟩

/-- A page table is the same in both, and so is what it answers. -/
theorem AlikeWith.onPages (alike : AlikeWith s t) (f : PageTable → α × PageTable) :
    Step.Agree AlikeWith (onPages (modifyGet f)) (onPages (modifyGet f)) s t := by
  have same : Step.Agree (· = ·) (modifyGet f) (modifyGet f) s.2 t.2 := by
    rw [alike.2]
    exact Step.Agree.modifyGet ⟨rfl, rfl⟩
  exact same.on fun _ _ samePages => ⟨alike.1, samePages⟩

theorem AlikeWith.installPage (alike : AlikeWith s t) (page : VirtPage) (target : PhysPage)
    (writable : Bool) :
    Step.Agree AlikeWith (installPage page target writable) (installPage page target writable)
      s t := by
  obtain ⟨frames, pages⟩ := s
  obtain ⟨frames', _⟩ := t
  obtain ⟨alike, rfl⟩ := alike
  apply Step.Agree.get
  simp only
  split
  next => exact Step.Agree.pure _ ⟨alike, rfl⟩
  next =>
    cases pages.install page target writable with
    | error reason => exact Step.Agree.pure _ ⟨alike, rfl⟩
    | ok after =>
      have set : AlikeWith (frames, after) (frames', after) := ⟨alike, rfl⟩
      exact (Step.Agree.set set).bind fun _ _ _ => Step.Agree.pure _

theorem AlikeWith.trackPage (alike : AlikeWith s t) (page : VirtPage) (target : PhysPage) :
    Step.Agree AlikeWith (trackPage page target) (trackPage page target) s t := by
  refine (alike.onPages fun pages => pages.findEntry page true).bind fun found s' t' alike' => ?_
  refine (Step.Agree.getOrFault found _ alike').bind fun entry s'' t'' alike'' => ?_
  exact alike''.onFrames (Step.Agree.modify (alike''.1.track target entry))

theorem AlikeWith.acquire (alike : AlikeWith s t) (request : PageRequest) (page : VirtPage)
    (writable : Bool) :
    Step.Agree AlikeWith (acquire request page writable) (acquire request page writable) s t := by
  refine (alike.onFrames (alike.1.onAllocator (alike.1.allocator.allocate request))).bind ?_
  intro found s' t' alike'
  cases found with
  | none => exact Step.Agree.pure _ alike'
  | some target =>
    refine (alike'.installPage page target writable).bind fun result s'' t'' alike'' => ?_
    cases result with
    | error reason =>
      refine (alike''.onFrames (alike''.1.onAllocator (alike''.1.allocator.free target))).bind ?_
      exact fun _ _ _ => Step.Agree.pure _
    | ok =>
      refine (alike''.trackPage page target).bind ?_
      exact fun _ _ _ => Step.Agree.pure _

theorem AlikeWith.share (alike : AlikeWith s t) (page : VirtPage) (target : PhysPage)
    (writable : Bool) :
    Step.Agree AlikeWith (share page target writable) (share page target writable) s t := by
  obtain ⟨frames, pages⟩ := s
  obtain ⟨frames', pages'⟩ := t
  have sameResident : frames.isResident target = frames'.isResident target := by
    rw [isResident, isResident, alike.1.frames]
  apply Step.Agree.get
  simp only [sameResident]
  cases frames'.isResident target with
  | false => exact Step.Agree.pure _ alike
  | true =>
    refine (alike.installPage page target writable).bind fun result s' t' alike' => ?_
    cases result with
    | error reason => exact Step.Agree.pure _ alike'
    | ok =>
      refine (alike'.trackPage page target).bind ?_
      exact fun _ _ _ => Step.Agree.pure _

/-! ## Failures -/

/-- An acquisition that fails leaves everything as it was, but for an allocator that is alike. -/
theorem acquire_fails (sound : a.allocator.Sound) (request : PageRequest) (pages : PageTable)
    (page : VirtPage) (writable : Bool) :
    Step.Ends (acquire request page writable) (a, pages)
      (fun result after => ∀ reason, result = .error reason → AlikeWith after (a, pages))
      fun _ after => AlikeWith after (a, pages) := by
  have same : AlikeWith (a, pages) (a, pages) := ⟨⟨sound.alike, rfl, rfl⟩, rfl⟩
  simp only [acquire, onFrames, onAllocator, Step.ends_bind, Step.ends_on]
  apply (sound.allocate_takes request).imp
  · intro found allocator ended
    cases found with
    | none =>
      obtain ⟨-, -, rfl⟩ := ended
      exact (Step.ends_pure _).mpr fun _ _ => same
    | some target =>
      obtain ⟨taken, found, rfl⟩ := ended
      simp only [Step.ends_bind]
      apply Step.Yields.imp (installPage_yields _ pages page target writable)
      intro result between installed
      cases result with
      | error reason =>
        obtain rfl := installed
        simp only [Step.ends_bind, Step.ends_on, Step.ends_pure]
        apply Step.Yields.imp (sound.free_taken found request.zeroed)
        exact fun _ freed alike _ _ => ⟨⟨alike, rfl, rfl⟩, rfl⟩
      | ok =>
        obtain ⟨place, atPlace, -, rfl⟩ := installed
        apply Step.Yields.bind (trackPage_yields atPlace target writable)
        exact fun _ _ _ => (Step.ends_pure _).mpr fun _ impossible => by cases impossible
  · rintro _ _ ⟨-, -, -, rfl⟩
    exact same

/-- Sharing that fails changes nothing at all. -/
theorem share_fails (pages : PageTable) (page : VirtPage) (target : PhysPage) (writable : Bool) :
    Step.Yields (share page target writable) (a, pages) fun result after =>
      ∀ reason, result = .error reason → after = (a, pages) := by
  simp only [share, Step.ends_bind, Step.ends_get]
  cases a.isResident target with
  | false => exact (Step.ends_pure _).mpr fun _ _ => rfl
  | true =>
    rw [Bool.not_true, if_neg Bool.false_ne_true, Step.ends_bind]
    apply Step.Yields.imp (installPage_yields a pages page target writable)
    intro result _ installed
    cases result with
    | error reason =>
      obtain rfl := installed
      exact (Step.ends_pure _).mpr fun _ _ => rfl
    | ok =>
      obtain ⟨place, atPlace, -, rfl⟩ := installed
      apply Step.Yields.bind (trackPage_yields atPlace target writable)
      exact fun _ _ _ => (Step.ends_pure _).mpr fun _ impossible => by cases impossible

end FrameTable

/-! ## Callers who go past the frame table -/

/-- What a caller can do who also has the allocator and the page tables in his hands. -/
inductive KernelCall (ι : Type) where
  | memory (call : MemoryCall ι)
  /-- A page is taken from the allocator, without a frame for it. -/
  | allocate (request : PageRequest)
  /-- A page is given back to the allocator, whether or not it is out or has a frame. -/
  | free (page : PhysPage)
  | modifyPage (page : PhysPage) (f : Page → Page)
  | mapping (table : ι) (page : VirtPage)
  | lookup (table : ι) (page : VirtPage)
  | pageOf (table : ι) (entry : EntryAddr)

inductive KernelAnswer where
  | memory (answer : MemoryAnswer)
  | page (found : Option PhysPage)
  | entry (found : Option Entry)
  | done

variable {ι : Type}

namespace MappedMemory

def onFrames {α : Type} (step : Step FrameTable α) : Step (MappedMemory ι) α :=
  Step.on MappedMemory.frames (fun frames memory => { memory with frames }) step

def onAllocator {α : Type} (step : Step PageAllocator α) : Step (MappedMemory ι) α :=
  onFrames (FrameTable.onAllocator step)

end MappedMemory

def KernelCall.step [DecidableEq ι] : KernelCall ι → Step (MappedMemory ι) KernelAnswer
  | .memory call => return .memory (← call.step)
  | .allocate request => return .page (← MappedMemory.onAllocator (PageAllocator.allocate request))
  | .free page => do
    MappedMemory.onAllocator (PageAllocator.free page)
    return .done
  | .modifyPage page f => do
    MappedMemory.onAllocator (PageAllocator.modifyPage page f)
    return .done
  | .mapping table page => return .page (((← get).tables table).mapping page)
  | .lookup table page => do
    let pages := (← get).tables table
    return .entry (pages.entry? page)
  | .pageOf table entry => return .page (((← get).tables table).pageOf entry)

namespace MappedMemory

/-- The same frames, warnings and page tables, over allocators that are alike. -/
structure Alike (a b : MappedMemory ι) : Prop where
  frames : a.frames.Alike b.frames
  tables : a.tables = b.tables

variable {a b : MappedMemory ι} {α : Type}

theorem alike_of_sound {memory : MappedMemory ι} (sound : memory.frames.allocator.Sound) :
    memory.Alike memory :=
  ⟨⟨sound.alike, rfl, rfl⟩, rfl⟩

namespace Alike

theorem onFrames (alike : a.Alike b) {step : Step FrameTable α}
    (agree : Step.Agree FrameTable.Alike step step a.frames b.frames) :
    Step.Agree Alike (onFrames step) (onFrames step) a b :=
  agree.on fun _ _ alikeAfter => ⟨alikeAfter, alike.tables⟩

theorem onAllocator (alike : a.Alike b) {step : Step PageAllocator α}
    (agree : Step.Agree PageAllocator.Alike step step a.frames.allocator b.frames.allocator) :
    Step.Agree Alike (onAllocator step) (onAllocator step) a b :=
  alike.onFrames (alike.frames.onAllocator agree)

variable [DecidableEq ι]

theorem setTable (alike : a.Alike b) (table : ι) (pages : PageTable) :
    (a.setTable table pages).Alike (b.setTable table pages) :=
  ⟨alike.frames, by rw [MappedMemory.setTable, MappedMemory.setTable, alike.tables]⟩

theorem onTable (alike : a.Alike b) (table : ι) {step : Step (FrameTable × PageTable) α}
    (agree : ∀ s t, FrameTable.AlikeWith s t → Step.Agree FrameTable.AlikeWith step step s t) :
    Step.Agree Alike (onTable table step) (onTable table step) a b := by
  have parts : FrameTable.AlikeWith (a.frames, a.tables table) (b.frames, b.tables table) :=
    ⟨alike.frames, congrFun alike.tables table⟩
  refine (agree _ _ parts).on ?_
  rintro ⟨frames, pages⟩ ⟨frames', _⟩ ⟨alikeFrames, rfl⟩
  have replaced : Alike { a with frames } { b with frames := frames' } :=
    ⟨alikeFrames, alike.tables⟩
  exact replaced.setTable table pages

theorem memoryCall (alike : a.Alike b) (call : MemoryCall ι) :
    Step.Agree Alike call.step call.step a b := by
  have sameTables := alike.tables
  cases call with
  | acquire table request page writable =>
    refine (alike.onTable table fun _ _ parts => parts.acquire request page writable).bind ?_
    exact fun _ _ _ => Step.Agree.pure _
  | share table page target writable =>
    refine (alike.onTable table fun _ _ parts => parts.share page target writable).bind ?_
    exact fun _ _ _ => Step.Agree.pure _
  | release table entry =>
    have released : Step.Agree Alike (MappedMemory.release table entry)
        (MappedMemory.release table entry) a b := by
      apply Step.Agree.get
      rw [sameTables]
      exact alike.onFrames (alike.frames.release _ entry)
    exact released.bind fun _ _ _ => Step.Agree.pure _
  | install table page target writable =>
    have installed : Step.Agree Alike (MappedMemory.install table page target writable)
        (MappedMemory.install table page target writable) a b := by
      apply Step.Agree.modifyGet
      rw [sameTables]
      cases (b.tables table).install page target writable with
      | ok pages => exact ⟨rfl, alike.setTable table pages⟩
      | error reason => exact ⟨rfl, alike⟩
    exact installed.bind fun _ _ _ => Step.Agree.pure _
  | unmap table page =>
    have unmapped : Step.Agree Alike (MappedMemory.unmap table page)
        (MappedMemory.unmap table page) a b := by
      apply Step.Agree.modifyGet
      rw [sameTables]
      cases (b.tables table).unmap page with
      | some pages => exact ⟨rfl, alike.setTable table pages⟩
      | none => exact ⟨rfl, alike⟩
    exact unmapped.bind fun _ _ _ => Step.Agree.pure _
  | findEntry table page create =>
    have found : Step.Agree Alike (MappedMemory.findEntry table page create)
        (MappedMemory.findEntry table page create) a b := by
      apply Step.Agree.modifyGet
      rw [sameTables]
      exact ⟨rfl, alike.setTable table _⟩
    exact found.bind fun _ _ _ => Step.Agree.pure _

theorem kernelCall (alike : a.Alike b) (call : KernelCall ι) :
    Step.Agree Alike call.step call.step a b := by
  have sameTables := alike.tables
  have allocator := alike.frames.allocator
  cases call with
  | memory call => exact (alike.memoryCall call).bind fun _ _ _ => Step.Agree.pure _
  | allocate request =>
    exact (alike.onAllocator (allocator.allocate request)).bind fun _ _ _ => Step.Agree.pure _
  | free page => exact (alike.onAllocator (allocator.free page)).bind fun _ _ _ => Step.Agree.pure _
  | modifyPage page f =>
    exact (alike.onAllocator (allocator.modifyPage page f)).bind fun _ _ _ => Step.Agree.pure _
  | mapping table page | lookup table page | pageOf table entry =>
    apply Step.Agree.get
    rw [sameTables]
    exact Step.Agree.pure _ alike

end Alike

variable [DecidableEq ι]

/-- Makes calls one after the other, whether or not they fail; gives their results. -/
def serveKernel (memory : MappedMemory ι) (calls : List (KernelCall ι)) :
    List (Except Fault KernelAnswer) × MappedMemory ι :=
  Step.runAll (calls.map KernelCall.step) memory

/-- Memories that are alike answer a run of calls in the same way, and are alike after it. -/
theorem Alike.serveKernel (alike : a.Alike b) (calls : List (KernelCall ι)) :
    (a.serveKernel calls).1 = (b.serveKernel calls).1 ∧
      (a.serveKernel calls).2.Alike (b.serveKernel calls).2 := by
  apply Step.runAll_agree Alike _ alike
  intro taken member a b alike
  obtain ⟨call, -, rfl⟩ := List.mem_map.mp member
  exact alike.kernelCall call

end MappedMemory

/-- A page is acquired or shared without success. -/
inductive MemoryCall.Fails [DecidableEq ι] (memory after : MappedMemory ι) :
    MemoryCall ι → Prop where
  | notAcquired {table : ι} {request : PageRequest} {page : VirtPage} {writable : Bool}
      {reason : FrameError}
      (run : (acquire table request page writable).step.run memory =
        .ok (.acquired (.error reason)) after) :
      Fails memory after (acquire table request page writable)
  | starved {table : ι} {request : PageRequest} {page : VirtPage} {writable : Bool} {fault : Fault}
      (run : (acquire table request page writable).step.run memory = .error fault after) :
      Fails memory after (acquire table request page writable)
  | notShared {table : ι} {page : VirtPage} {target : PhysPage} {writable : Bool}
      {reason : FrameError}
      (run : (share table page target writable).step.run memory =
        .ok (.shared (.error reason)) after) :
      Fails memory after (share table page target writable)

namespace MappedMemory

variable [DecidableEq ι] {memory failed : MappedMemory ι}

/-- What a call that fails leaves is alike to what there was. -/
theorem alike_of_fails (sound : memory.frames.allocator.Sound) {call : MemoryCall ι}
    (fails : call.Fails memory failed) : failed.Alike memory := by
  have back (table : ι) {frames : FrameTable} {pages : PageTable}
      (alike : FrameTable.AlikeWith (frames, pages) (memory.frames, memory.tables table)) :
      ({ memory with frames }.setTable table pages).Alike memory := by
    obtain ⟨alike, rfl⟩ := alike
    exact ⟨alike, Function.update_eq_self ..⟩
  have acquiring (table : ι) (request : PageRequest) (page : VirtPage) (writable : Bool) :
      Step.Ends (MemoryCall.acquire table request page writable).step memory
        (fun answer after => ∀ reason, answer = .acquired (.error reason) → after.Alike memory)
        fun _ after => after.Alike memory := by
    simp only [MemoryCall.step, onTable, Step.ends_bind, Step.ends_on, Step.ends_pure]
    apply (FrameTable.acquire_fails sound request (memory.tables table) page writable).imp
    · rintro result ⟨frames, pages⟩ alike reason same
      cases same
      exact back table (alike reason rfl)
    · rintro _ ⟨frames, pages⟩ alike
      exact back table alike
  cases fails with
  | notAcquired run => exact (acquiring ..).done_of_run run _ rfl
  | starved run => exact (acquiring ..).stopped_of_run run
  | @notShared table page target writable reason run =>
    have sharing : Step.Yields (MemoryCall.share table page target writable).step memory
        fun answer after => ∀ reason, answer = .shared (.error reason) → after = memory := by
      simp only [MemoryCall.step, onTable, Step.ends_bind, Step.ends_on, Step.ends_pure]
      apply Step.Yields.imp (FrameTable.share_fails (memory.tables table) page target writable)
      rintro result ⟨frames, pages⟩ unchanged reason same
      cases same
      cases unchanged reason rfl
      exact setTable_self memory table
    rw [sharing.done_of_run run reason rfl]
    exact alike_of_sound sound

/-- A frame table over a new allocator, after any run of calls, with any page tables.  A call of
`acquire` or `share` that fails changes neither the frames nor a page table.  Whatever is called
afterwards, also on the allocator and behind the back of the frame table, gives the results and
stops with the faults that it would have given without the failing call, and leaves as many frames,
pages that are out and pages that are left. -/
theorem failed_call_leaves_no_trace {start stop : PhysPage} {allocator : PageAllocator}
    (made : PageAllocator.ofRange start stop = .ok allocator) (tables : ι → PageTable)
    (before : List (KernelCall ι)) {call : MemoryCall ι}
    (fails : call.Fails (serveKernel { frames := { allocator }, tables } before).2 failed) :
    let reached := (serveKernel { frames := { allocator }, tables } before).2
    failed.frames.frames = reached.frames.frames ∧ failed.tables = reached.tables ∧
      ∀ later : List (KernelCall ι),
        let without := reached.serveKernel later
        let withCall := failed.serveKernel later
        withCall.1 = without.1 ∧
          withCall.2.frames.frames = without.2.frames.frames ∧
          withCall.2.frames.warnings = without.2.frames.warnings ∧
          withCall.2.tables = without.2.tables ∧
          withCall.2.frames.size = without.2.frames.size ∧
          withCall.2.frames.allocator.allocated = without.2.frames.allocator.allocated ∧
          withCall.2.frames.allocator.available = without.2.frames.allocator.available := by
  intro reached
  have fresh : MappedMemory.Alike { frames := { allocator }, tables }
      { frames := { allocator }, tables } :=
    alike_of_sound (PageAllocator.sound_ofRange made).1
  have sound : reached.frames.allocator.Sound := (fresh.serveKernel before).2.frames.allocator.sound
  have alike : failed.Alike reached := alike_of_fails sound fails
  refine ⟨alike.frames.frames, alike.tables, fun later => ?_⟩
  obtain ⟨answers, alikeLater⟩ := alike.serveKernel later
  have sameFrames := alikeLater.frames.frames
  refine ⟨answers, sameFrames, alikeLater.frames.warnings, alikeLater.tables, ?_,
    alikeLater.frames.allocator.allocated, alikeLater.frames.allocator.available⟩
  rw [FrameTable.size, FrameTable.size, sameFrames]

/-- A new page is taken for a virtual page that no table has a place for, and waits on the stack
from then on.  It is handed out next all the same, and giving it back a second time is a fault. -/
theorem failed_call_leaves_no_trace_past_the_table :
    let allocator : PageAllocator := { start := ⟨5⟩, fresh := ⟨5⟩, stop := ⟨7⟩ }
    let start : MappedMemory Bool := { frames := { allocator }, tables := fun _ => { root := ⟨9⟩ } }
    let call : MemoryCall Bool := .acquire true {} ⟨512⟩ true
    let later : List (KernelCall Bool) :=
      [.allocate {}, .memory (.acquire false {} ⟨0⟩ true), .free ⟨5⟩, .free ⟨5⟩]
    PageAllocator.ofRange ⟨5⟩ ⟨7⟩ = .ok allocator ∧
      ∃ failed, call.Fails start failed ∧
        failed.frames.allocator = { start := ⟨5⟩, fresh := ⟨6⟩, stop := ⟨7⟩, recycled := [⟨5⟩] } ∧
        failed.tables = start.tables ∧
        (failed.serveKernel later).1 = (start.serveKernel later).1 := by
  intro allocator start call later
  have made : PageAllocator.ofRange ⟨5⟩ ⟨7⟩ = .ok allocator :=
    PageAllocator.ofRange_eq_ok_iff.mpr ⟨by decide, by decide, rfl⟩
  have fails : call.Fails start _ := .notAcquired rfl
  have same := failed_call_leaves_no_trace made start.tables [] fails
  exact ⟨made, _, fails, rfl, same.2.1, (same.2.2 later).1⟩

end MappedMemory

end Residency
