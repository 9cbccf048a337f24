import TemplateCompiler.Proofs.Compiler.Folding

/-! Runs of a compiler. Requests come in any order, conversions are looked up directly as
well, and between two requests the host may get into any state: time may pass, and others
may use it. Nothing is said here about calls at the same time. -/
namespace TemplateCompiler

/-- What can happen to a compiler. -/
inductive Event (σ : Type) where
  | compile (request : Request)
  | diagnose (request : Request)
  | lookup (request : Request)
  | purge
  | clear
  | reset
  /-- The host gets into another state by itself. -/
  | elapse (host : σ)

/-- Events that differ at most in what happened to the host by itself. -/
inductive Event.Alike {σ : Type} : Event σ → Event σ → Prop where
  | same (event : Event σ) : Alike event event
  | elapse (s s' : σ) : Alike (.elapse s) (.elapse s')

/-- What a compiler replies. -/
inductive Reply where
  | compiled (result : Except CompileError Compiled)
  | diagnosed (result : Except CompileError (List Diagnostic))
  | found (result : Except CompileError Conversion.Outcome)
  | silent

variable {σ : Type}

def Event.request? : Event σ → Option Request
  | compile request | diagnose request | lookup request => some request
  | purge | clear | reset | elapse _ => none

/-- Events that are alike are about the same request. -/
theorem Event.Alike.request?_eq {event event' : Event σ} (h : event.Alike event') :
    event.request? = event'.request? := by
  cases h <;> rfl

namespace Compiler

/-- A compiler that was just made. -/
def start (options : Options) (s : σ) : Workspace σ := ⟨s, .empty options.idle⟩

def perform (host : Host σ) (options : Options) (workspace : Workspace σ) :
    Event σ → Reply × Workspace σ
  | .compile request => (compile host options request workspace).map .compiled id
  | .diagnose request => (diagnose host options request workspace).map .diagnosed id
  | .lookup request => (Conversion.lookup host request workspace).map .found id
  | .purge => (.silent, (purge host workspace).2)
  | .clear => (.silent, { workspace with cache := workspace.cache.clear })
  | .reset => (.silent, (reset host workspace).2)
  | .elapse s => (.silent, { workspace with host := s })

/-- What is asked for in the course of some events. -/
def requests (events : List (Event σ)) : List Request := events.filterMap Event.request?

/-- The replies to all events, and the compiler after the last one. -/
def run (host : Host σ) (options : Options) :
    List (Event σ) → Workspace σ → List Reply × Workspace σ
  | [], workspace => ([], workspace)
  | event :: events, workspace =>
    let (reply, middle) := perform host options workspace event
    let (replies, after) := run host options events middle
    (reply :: replies, after)

/-- The cache of a compiler that was made in some state of the host, after a run. -/
def cacheAfter (host : Host σ) (options : Options) (events : List (Event σ)) (s : σ) :
    Conversion.Cache :=
  (run host options events (start options s)).2.cache

theorem forall_requests_cons {Q : Request → Prop} {event : Event σ} {events : List (Event σ)} :
    (∀ request ∈ requests (event :: events), Q request) ↔
      (∀ request, event.request? = some request → Q request) ∧
        ∀ request ∈ requests events, Q request := by
  simp only [requests, List.mem_filterMap, List.mem_cons, or_and_right, exists_or,
    exists_eq_left, or_imp, forall_and]

variable {host : Host σ} {options : Options}

/-- A run goes on where its first part has led. -/
theorem run_append (host : Host σ) (options : Options) (front back : List (Event σ))
    (workspace : Workspace σ) :
    (run host options (front ++ back) workspace).2 =
      (run host options back (run host options front workspace).2).2 := by
  induction front generalizing workspace with
  | nil => rfl
  | cons event front ih => exact ih _

theorem cache_delegate (request : Request) (workspace : Workspace σ) :
    (delegate host request workspace).2.cache = workspace.cache := by
  cases hAnswer : host.compileExpression request workspace.host with
  | mk answer after => rw [delegate_eq hAnswer]

/-- To compile a literal is to look up its conversion, as far as the cache goes. -/
theorem cache_compile_of_folds {request : Request} {text : String}
    (hFolds : request.Folds options text) (workspace : Workspace σ) :
    (compile host options request workspace).2.cache =
      (Conversion.lookup host request workspace).2.cache := by
  cases hLookup : Conversion.lookup host request workspace with
  | mk result after =>
      cases result with
      | error e => rw [compile_of_lookup_error hFolds hLookup]
      | ok outcome =>
          cases outcome with
          | ok descriptor => rw [compile_of_descriptor hFolds hLookup]
          | error unavailable => rw [compile_of_unavailable hFolds hLookup, cache_delegate]

/-- Compiling changes the cache as a look-up does, or not at all. -/
theorem cache_compile (request : Request) (workspace : Workspace σ) :
    (compile host options request workspace).2.cache = workspace.cache ∨
      (compile host options request workspace).2.cache =
        (Conversion.lookup host request workspace).2.cache := by
  by_cases hFolds : ∃ text, request.Folds options text
  · obtain ⟨text, hFolds⟩ := hFolds
    exact .inr (cache_compile_of_folds hFolds workspace)
  · left
    obtain ⟨result, later, hCompile⟩ :=
      compile_of_not_folds host (not_exists.mp hFolds) workspace.host
    rw [hCompile workspace.cache]

/-- To diagnose a literal is to look up its conversion, if the host finds nothing wrong. -/
theorem cache_diagnose_of_folds {request : Request} {text : String} {workspace : Workspace σ}
    {later : σ} (hFolds : request.Folds options text)
    (hAnswer : host.diagnose request workspace.host = (.ok [], later)) :
    (diagnose host options request workspace).2.cache =
      (Conversion.lookup host request { workspace with host := later }).2.cache := by
  rw [diagnose_of_folds hFolds hAnswer]
  split <;> simp_all

/-- Diagnosing leaves the cache alone but for one look-up. -/
theorem cache_diagnose (request : Request) (workspace : Workspace σ) :
    (diagnose host options request workspace).2.cache = workspace.cache ∨
      ∃ s, (diagnose host options request workspace).2.cache =
        (Conversion.lookup host request { workspace with host := s }).2.cache := by
  cases hAnswer : host.diagnose request workspace.host with
  | mk answer later =>
      cases answer with
      | error e =>
          left
          rw [diagnose_of_error hAnswer]
      | ok found =>
          by_cases hBoth : found = [] ∧ ∃ text, request.Folds options text
          · obtain ⟨rfl, text, hFolds⟩ := hBoth
            exact .inr ⟨later, cache_diagnose_of_folds hFolds hAnswer⟩
          · left
            rw [diagnose_of_found hAnswer hBoth]

/-- An event leaves the cache alone, looks a conversion up in it, purges it or empties it. -/
theorem cache_perform (event : Event σ) (workspace : Workspace σ) :
    (perform host options workspace event).2.cache = workspace.cache ∨
      (∃ request s, event.request? = some request ∧
        (perform host options workspace event).2.cache =
          (Conversion.lookup host request { workspace with host := s }).2.cache) ∨
      (perform host options workspace event).2.cache =
        workspace.cache.purge (host.clock workspace.host) ∨
      (perform host options workspace event).2.cache = .empty workspace.cache.idle := by
  cases event with
  | compile request =>
      rcases cache_compile request workspace with hSame | hLookup
      · exact .inl hSame
      · exact .inr (.inl ⟨request, workspace.host, rfl, hLookup⟩)
  | diagnose request =>
      rcases cache_diagnose request workspace with hSame | ⟨s, hLookup⟩
      · exact .inl hSame
      · exact .inr (.inl ⟨request, s, rfl, hLookup⟩)
  | lookup request => exact .inr (.inl ⟨request, workspace.host, rfl, rfl⟩)
  | purge => exact .inr (.inr (.inl rfl))
  | clear | reset => exact .inr (.inr (.inr rfl))
  | elapse => exact .inl rfl

/-- The idle time of a compiler is the same for ever. -/
theorem idle_perform (event : Event σ) (workspace : Workspace σ) :
    (perform host options workspace event).2.cache.idle = workspace.cache.idle := by
  rcases cache_perform event workspace with hSame | ⟨request, s, _, hLookup⟩ | hPurge | hEmpty
  · rw [hSame]
  · rw [hLookup, (Conversion.lookedUp_lookup host request _).idle_eq]
  · rw [hPurge]
    rfl
  · rw [hEmpty]
    rfl

/-- No run changes the idle time. -/
theorem idle_run (events : List (Event σ)) (workspace : Workspace σ) :
    (run host options events workspace).2.cache.idle = workspace.cache.idle := by
  induction events generalizing workspace with
  | nil => rfl
  | cons event events ih => exact (ih _).trans (idle_perform event workspace)

/-- The idle time of a cache is always the one of its options. -/
theorem idle_cacheAfter (events : List (Event σ)) (s : σ) :
    (cacheAfter host options events s).idle = options.idle :=
  idle_run events (start options s)

/-- A property of caches that new ones have and nothing can break, as long as all requests
satisfy another. -/
structure Keeps (host : Host σ) (P : Conversion.Cache → Prop) (Q : Request → Prop) : Prop where
  lookup : ∀ request workspace, Q request → P workspace.cache →
    P (Conversion.lookup host request workspace).2.cache
  purge : ∀ cache now, P cache → P (cache.purge now)
  empty : ∀ idle, P (.empty idle)

namespace Keeps
variable {P : Conversion.Cache → Prop} {Q : Request → Prop}

/-- What a look-up, a purge and a new cache keep is kept by every event. -/
theorem perform (hKeeps : Keeps host P Q) {event : Event σ}
    (hEvent : ∀ request, event.request? = some request → Q request) {workspace : Workspace σ}
    (h : P workspace.cache) : P (Compiler.perform host options workspace event).2.cache := by
  rcases cache_perform event workspace with hSame | ⟨request, s, hAsked, hLookup⟩ | hPurge | hEmpty
  · rwa [hSame]
  · rw [hLookup]
    exact hKeeps.lookup request _ (hEvent request hAsked) h
  · rw [hPurge]
    exact hKeeps.purge _ _ h
  · rw [hEmpty]
    exact hKeeps.empty workspace.cache.idle

theorem run (hKeeps : Keeps host P Q) {events : List (Event σ)}
    (hEvents : ∀ request ∈ requests events, Q request) {workspace : Workspace σ}
    (h : P workspace.cache) : P (Compiler.run host options events workspace).2.cache := by
  induction events generalizing workspace with
  | nil => exact h
  | cons event events ih =>
      obtain ⟨hEvent, hRest⟩ := forall_requests_cons.mp hEvents
      exact ih hRest (hKeeps.perform hEvent h)

/-- What every event keeps is true of the cache after any run from the start. -/
theorem cacheAfter (hKeeps : Keeps host P Q) {events : List (Event σ)}
    (hEvents : ∀ request ∈ requests events, Q request) (s : σ) :
    P (Compiler.cacheAfter host options events s) :=
  hKeeps.run hEvents (hKeeps.empty options.idle)

end Keeps
end Compiler
end TemplateCompiler
