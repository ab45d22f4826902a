import Unwinding.Description
import Unwinding.Session.Store

/-!
# Running a session

Each command is one step from a session to the next with one reply. A refused command changes
nothing but what the refused operation itself leaves behind.
-/
namespace Unwinding

namespace Reply

def ok (a : Answer) : Reply := { result := .ok a }

def refused (r : Refusal) : Reply := { result := .error r }

def unknown : Reply := refused .unknownObject

def ofExcept {α : Type} (x : Except Fault α) (answer : α → Answer) : Reply :=
  match x with
  | .ok a => ok (answer a)
  | .error f => refused (.fault f)

end Reply

namespace Session

/-- Runs an action on the memory of that name; the reply shows the state it left. -/
def onMemory {α : Type} (s : Session) (name : String) (m : Memory) (x : Action Memory α)
    (answer : α → Answer) : Session × Reply :=
  let run := x m
  let m := Action.final run
  ({ s with memories := s.memories.insert name m },
    { Reply.ofExcept (Action.result run) answer with memory := some m })

def memoryStep (s : Session) (name : String) (c : MemoryCommand) : Session × Reply :=
  match c, s.memories.find? name with
  | .new config, _ =>
    let m := Memory.new config
    ({ s with memories := s.memories.insert name m },
      { result := .ok (.budget m.limit.toNat), memory := some m })
  | _, none => (s, .unknown)
  | .clone copy, some m => ({ s with memories := s.memories.insert copy m }, .ok .nothing)
  | .alloc size, some m => s.onMemory name m (Memory.alloc size) (.address ∘ some)
  | .allocRecord l, some m => s.onMemory name m (Record.allocate l) (.address ∘ some)
  | .free a, some m => s.onMemory name m (Memory.free a) fun _ => .nothing
  | .write a data, some m => s.onMemory name m (Memory.write a data) fun _ => .nothing
  | .writePointer l a value, some m =>
    s.onMemory name m (Memory.writePointer l a value) fun _ => .nothing
  | .writeInt32 l a value, some m =>
    s.onMemory name m (Memory.writeInt32 l a value) fun _ => .nothing
  | .writeRecord l a r, some m => s.onMemory name m (r.write l a) (.address ∘ some)
  | .read a length, some m => (s, .ofExcept (m.read a length) .bytes)
  | .isValid a, some m => (s, .ok (.flag (m.isValid a)))
  | .readPointer l a, some m => (s, .ofExcept (m.readPointer l a) (.address ∘ some))
  | .readInt32 l a, some m => (s, .ofExcept (m.readInt32 l a) .int32)
  | .readRecord l a, some m => (s, .ofExcept (Record.read m l a) .record)

/-- The value that goes into a slot. An exception gets the serial number given. -/
def slotValue (serial : Nat) : SlotInput → SlotValue
  | .exception header => .exception ⟨serial, header⟩
  | .stack handle => .stack handle
  | .pointer a => .pointer a
  | .int32 v => .int32 v
  | .int64 v => .int64 v

def frameStep (s : Session) (name : String) (c : FrameCommand) : Session × Reply :=
  match c, s.frames.find? name with
  | .new count, _ =>
    let f := Frame.new count
    ({ s with frames := s.frames.insert name f }, .ok (.number f.count))
  | _, none => (s, .unknown)
  | .clone copy, some f => ({ s with frames := s.frames.insert copy f }, .ok .nothing)
  | .set slot v, some f =>
    match f.set slot (slotValue s.thrown v) with
    | .ok f =>
      ({ s with frames := s.frames.insert name f, thrown := s.thrown + 1 }, .ok .nothing)
    | .error fault => (s, .refused (.fault fault))
  | .clear slot, some f =>
    match f.clear slot with
    | .ok (old, f) => ({ s with frames := s.frames.insert name f }, .ok (.slot old))
    | .error fault => (s, .refused (.fault fault))
  | .get slot, some f => (s, .ofExcept (f.get slot) .slot)
  | .exception slot, some f =>
    (s, .ofExcept (f.exception slot) fun e => .address (some e.header))
  | .stack slot, some f => (s, .ofExcept (f.stack slot) (.address ∘ some))
  | .pointer slot, some f => (s, .ofExcept (f.pointer slot) (.address ∘ some))

def graphStep (s : Session) (name : String) (c : GraphCommand) : Session × Reply :=
  let put (handle : Nat) (g : TypeGraph) : Session := { s with graphs := s.graphs.set handle g }
  match c, s.graph? name with
  | .new, _ =>
    let (handle, graphs) := s.graphs.add .empty
    ({ s with graphs := graphs, graphNames := s.graphNames.insert name handle }, .ok .nothing)
  | _, none => (s, .unknown)
  | .registerType type bases, some (handle, g) =>
    (put handle (g.registerType type bases), .ok .nothing)
  | .registerException header type, some (handle, g) =>
    (put handle (g.registerException header type), .ok .nothing)
  | .forgetException header, some (handle, g) =>
    (put handle (g.forgetException header), .ok (.address (g.thrownType header)))
  | .thrownType header, some (_, g) => (s, .ok (.address (g.thrownType header)))
  | .isDerivedFrom derived base, some (_, g) => (s, .ok (.flag (g.isDerivedFrom derived base)))
  | .canCatch header type, some (_, g) => (s, .ofExcept (g.canCatch header type) .flag)

/-- The frame of that name; a client that has none resolves with a frame without slots. -/
def frameOrEmpty (s : Session) (name : String) : Frame := (s.frames.find? name).getD (.new 0)

def symbolsStep (s : Session) (name : String) (c : SymbolsCommand) : Session × Reply :=
  match c, s.symbols? name with
  | .new, _ =>
    let (handle, tables) := s.symbolTables.add .empty
    ({ s with symbolTables := tables, symbolNames := s.symbolNames.insert name handle },
      .ok .nothing)
  | _, none => (s, .unknown)
  | .define symbol a, some (handle, t) =>
    let t := t.define symbol a
    ({ s with symbolTables := s.symbolTables.set handle t }, .ok (.symbols t.size))
  | .lookup symbol, some (_, t) => (s, .ok (.symbol (t.lookup symbol) t.size))
  | .resolve frame o, some (_, t) =>
    (s, .ofExcept (t.resolve (s.frameOrEmpty frame) o) (.address ∘ some))

/-- A matcher of a new context; none if it is to ask a graph that is not there. -/
def newMatcher (s : Session) : MatcherInput → Option Matcher
  | .graph name logged => do
    let handle ← s.graphNames.find? name
    return ⟨.graph handle, if logged then some [] else none⟩
  | .listed accepted refused => some ⟨.listed accepted refused, some []⟩

def newContext (s : Session) (name : String) (c : Config) (symbols : String) (m : MatcherInput) :
    Session × Reply :=
  match s.symbolNames.find? symbols, s.newMatcher m with
  | some resolver, some matcher =>
    let (handle, matchers) := s.matchers.add matcher
    match Context.openWith ⟨c, ⟨resolver⟩, ⟨handle⟩⟩ s.scratch with
    | .ok (ctx, d) =>
      ({ s with matchers := matchers }.putContext name ctx d,
        .ok (.context c ctx.tracer.isSome))
    | .error f => (s, .refused (.file f))
  | _, _ => (s, .unknown)

/-- Acquires the matcher of a context and puts one question to it. -/
def askMatcher (s : Session) (name : String) (ctx : Context) (q : Query) : Session × Reply :=
  let m := ctx.environment.matcher
  let ctx := { ctx with acquisitions := ctx.acquisitions + 1 }
  ({ s with contexts := s.contexts.insert name ctx }.logQueries [(m, q)],
    .ofExcept (s.world.canCatch m q) .flag)

def takeCalls (s : Session) (m : MatcherId) : Session × Reply :=
  ({ s with matchers := s.matchers.update m.index fun m => { m with log := m.log.map fun _ => [] } },
    .ok (.queries ((s.matchers.get? m.index).bind (·.log))))

def contextStep (s : Session) (name : String) (c : ContextCommand) : Session × Reply :=
  match c, s.contexts.find? name with
  | .new config symbols m, _ => s.newContext name config symbols m
  | .drop, none => (s, .ok (.flag false))
  | .drop, some ctx =>
    ({ s with contexts := s.contexts.erase name, scratch := ctx.close s.scratch },
      .ok (.flag true))
  | _, none => (s, .unknown)
  | .resolve frame o, some ctx =>
    (s, .ofExcept (s.world.resolve ctx.environment.resolver (s.frameOrEmpty frame) o)
      (.address ∘ some))
  | .acquireMatcher q, some ctx => s.askMatcher name ctx q
  | .acquisitions, some ctx => (s, .ok (.number ctx.acquisitions))
  | .calls, some ctx => s.takeCalls ctx.environment.matcher
  | .describe, some ctx => (s, .ok (.text (Description.context ctx)))

/-- What a trace command does to a writer. -/
def writerStep (w : Writer) (d : Scratch) : TraceCommand → Writer × Scratch × Answer
  | .write e =>
    let (w, d) := w.write e d
    (w, d, .number w.eventCount)
  | .count => (w, d, .number w.eventCount)
  | .flush =>
    let (w, d) := w.flush d
    (w, d, .nothing)
  | .take =>
    let (events, w) := w.take
    (w, d, .texts (events.map (·.map (·.line w.label))))
  | .describe => (w, d, .text (Description.writer w))

def traceStep (s : Session) (target : TraceTarget) (c : TraceCommand) : Session × Reply :=
  match target with
  | .writer name =>
    match s.writers.find? name with
    | none => (s, .unknown)
    | some w =>
      let (w, d, a) := writerStep w s.scratch c
      ({ s with writers := s.writers.insert name w, scratch := d }, .ok a)
  | .contextTracer name =>
    match s.contexts.find? name with
    | none => (s, .unknown)
    | some ctx =>
      match ctx.tracer with
      | none => (s, .ok (.text "no tracer"))
      | some w =>
        let (w, d, a) := writerStep w s.scratch c
        ({ s with contexts := s.contexts.insert name { ctx with tracer := some w }, scratch := d },
          .ok a)

def newWriterStep (s : Session) (name : String) (c : WriterCommand) : Session × Reply :=
  match c with
  | .inMemory label capacity =>
    (s.putWriter name (.inMemory label capacity) s.scratch, .ok (.label label))
  | .toFile label path =>
    match Writer.toFile label path s.scratch with
    | .ok (w, d) => (s.putWriter name w d, .ok (.label label))
    | .error f => (s, .refused (.file f))
  | .drop =>
    match s.writers.find? name with
    | none => (s, .ok (.flag false))
    | some w =>
      ({ s with writers := s.writers.erase name, scratch := w.close s.scratch }, .ok (.flag true))

def fileStep (s : Session) (path : String) (c : FileCommand) : Session × Reply :=
  match c with
  | .write text =>
    match s.scratch.create path text with
    | .ok d => ({ s with scratch := d }, .ok .nothing)
    | .error f => (s, .refused (.file f))
  | .read =>
    let lines (text : String) := (Lines.ofText text.toList).map String.ofList
    (s, .ok (.texts ((s.scratch.read path).map lines)))

def evaluateStep (s : Session) (name : String) (p : BuiltPad) (frame context : String)
    (index : Nat) (stack header : Address) : Session × Reply :=
  match s.frames.find? frame, s.contexts.find? context, p.pad.clauses[index]? with
  | some f, some ctx, some clause =>
    let e := ctx.evaluate s.world clause index p.held f stack header
    let p := { p with held := e.held }
    ({ s with
        contexts := s.contexts.insert context e.context
        pads := s.pads.insert name p }.logQueries e.asked,
      { Reply.ofExcept e.result .selector with
        acquisitions := some e.context.acquisitions
        matchers := some p.matchers })
  | _, _, _ => (s, .unknown)

/-- A resumed exception is the one that the frame holds in the exception slot of the pad. -/
def isHeld (f : Frame) (p : Pad) (o : Outcome) : Bool :=
  match o.resumed?, f.exception p.exceptionSlot with
  | some e, .ok held => e == held
  | _, _ => false

def dispatchStep (s : Session) (name : String) (p : BuiltPad) (frame context memory : String) :
    Session × Reply :=
  match s.frames.find? frame, s.contexts.find? context, s.memories.find? memory with
  | some f, some ctx, some m =>
    let r := ctx.dispatch s.world p.pad p.held f m s.scratch
    let p := { p with held := r.held }
    ({ s with
        contexts := s.contexts.insert context r.context
        pads := s.pads.insert name p
        memories := s.memories.insert memory r.memory
        scratch := r.scratch }.logQueries r.asked,
      { Reply.ofExcept r.result (fun o => .outcome o (isHeld f p.pad o)) with
        memory := some r.memory
        acquisitions := some r.context.acquisitions
        matchers := some p.matchers })
  | _, _, _ => (s, .unknown)

def padStep (s : Session) (name : String) (c : PadCommand) : Session × Reply :=
  match c, s.pads.find? name with
  | .build settings, _ =>
    match Pad.assemble settings with
    | .ok p => ({ s with pads := s.pads.insert name ⟨p, {}⟩ }, .ok (.pad ⟨p, {}⟩))
    | .error m => (s, .refused (.incomplete m))
  | _, none => (s, .unknown)
  | .info, some p => (s, .ok (.pad p))
  | .clone copy, some p => ({ s with pads := s.pads.insert copy p }, .ok .nothing)
  | .equals other, some p =>
    match s.pads.find? other with
    | some q => (s, .ok (.flag (p.pad == q.pad)))
    | none => (s, .unknown)
  | .describeClause index, some p =>
    match p.pad.clauses[index]? with
    | some c => (s, .ok (.text (Description.clause c (p.held.contains index))))
    | none => (s, .unknown)
  | .evaluate frame context index stack header, some p =>
    s.evaluateStep name p frame context index stack header
  | .dispatch frame context memory, some p => s.dispatchStep name p frame context memory

def step (s : Session) : Command → Session × Reply
  | .memory name c => s.memoryStep name c
  | .frame name c => s.frameStep name c
  | .graph name c => s.graphStep name c
  | .symbols name c => s.symbolsStep name c
  | .context name c => s.contextStep name c
  | .trace target c => s.traceStep target c
  | .writer name c => s.newWriterStep name c
  | .file path c => s.fileStep path c
  | .pad name c => s.padStep name c

def run : Session → List Command → Session × List Reply
  | s, [] => (s, [])
  | s, c :: cs =>
    let (s, r) := s.step c
    let (s, rs) := s.run cs
    (s, r :: rs)

end Session

end Unwinding
