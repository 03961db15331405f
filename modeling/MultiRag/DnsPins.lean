/-
  **Global DNS pins of overlapping contexts.**

  A context of `pin_dns_global` remembers the pin it found for its hostname, sets
  its own, and puts the remembered one back when it is left.  The contexts that are
  open for a hostname, newest first, are therefore linked (`Linked`): the pin is the
  address of the newest, and each remembers the address of the next older one.
-/
import MultiRag.Run

namespace MultiRag.SsrfGuard

open List Function

/-! ### Lookups -/

inductive AddressFamily where
  | inet | inet6

/-- `(family, SOCK_STREAM, IPPROTO_TCP, "", (ip, port))` -/
structure AddrInfo where
  family : AddressFamily
  ip : String
  port : Int

inductive Port where
  | none
  | number (n : Int)
  | service (text : String)

inductive LookupError where
  | valueError | gaierror

def Port.toInt (int : String → Option Int) : Port → Except LookupError Int
  | .none => .ok 0
  | .number n => .ok n
  | .service text =>
    if text = "" then .ok 0
    else match int text with
      | some n => .ok n
      | .none => .error .valueError

def pinnedAddrinfo (int : String → Option Int) (ip : String) (port : Port) :
    Except LookupError (List AddrInfo) := do
  let family := if ':' ∈ ip.toList then .inet6 else .inet
  let port ← port.toInt int
  .ok [⟨family, ip, port⟩]

/-- The `host` of a lookup; only a `str` can be pinned. -/
inductive Host where
  | none
  | bytes (raw : List UInt8)
  | str (name : String)

abbrev Pins := String → Option String

structure Resolver where
  int : String → Option Int
  originalGetaddrinfo : Host → Port → Except LookupError (List AddrInfo)

def getaddrinfoWithPins (resolver : Resolver) (localPins globalPins : Pins) (host : Host) (port : Port) :
    Except LookupError (List AddrInfo) :=
  match host with
  | .str name =>
    match localPins name with
    | some ip => pinnedAddrinfo resolver.int ip port
    | .none =>
      match globalPins name with
      | some ip => pinnedAddrinfo resolver.int ip port
      | .none => resolver.originalGetaddrinfo host port
  | _ => resolver.originalGetaddrinfo host port

/-! ### Contexts of `pin_dns_global` -/

/-- A context that was entered: its arguments, and the pin it found. -/
structure Context where
  number : Nat
  hostname : String
  ip : String
  previous : Option String
deriving DecidableEq

/-- `_GLOBAL_DNS_PINS`, and the contexts that are open, newest first. -/
structure PinState where
  pins : Pins
  opened : List Context
  entered : Nat

def PinState.initial : PinState := ⟨fun _ => none, [], 0⟩

/-- The part of `pin_dns_global` before its `yield`. -/
def PinState.enter (s : PinState) (hostname ip : String) : PinState where
  pins := update s.pins hostname (some ip)
  opened := ⟨s.entered, hostname, ip, s.pins hostname⟩ :: s.opened
  entered := s.entered + 1

/-- The `finally` of `pin_dns_global`. -/
def PinState.leave (s : PinState) (context : Context) : PinState where
  pins := update s.pins context.hostname context.previous
  opened := s.opened.filter (· ≠ context)
  entered := s.entered

inductive PinEvent where
  | enter (hostname ip : String)
  | leave (context : Context)

/-- Both parts hold the lock, so they run one after the other, in any order of the contexts. -/
def pinStep (s : PinState) (e : PinEvent) (s' : PinState) : Prop :=
  match e with
  | .enter hostname ip => s' = s.enter hostname ip
  | .leave context => context ∈ s.opened ∧ s' = s.leave context

def PinState.contexts (s : PinState) (hostname : String) : List Context :=
  s.opened.filter (·.hostname = hostname)

/-- A hostname with open contexts is looked up as one of them pins it, in threads without a pin
    of their own, and without open contexts it has no pin. -/
def PinState.Protected (s : PinState) (hostname : String) : Prop :=
  (s.contexts hostname ≠ [] → ∃ context ∈ s.contexts hostname, ∀ resolver localPins port,
    localPins hostname = none →
    getaddrinfoWithPins resolver localPins s.pins (.str hostname) port =
      pinnedAddrinfo resolver.int context.ip port) ∧
  (s.contexts hostname = [] → s.pins hostname = none)

/-- A context is left as the newest of its hostname, or, where all of them pin one address, as
    any but the oldest. -/
def PinEvent.InOrder (s : PinState) : PinEvent → Prop
  | .enter _ _ => True
  | .leave context =>
    (s.contexts context.hostname).head? = some context ∨
      (s.contexts context.hostname).getLast? ≠ some context ∧
        ∀ other ∈ s.contexts context.hostname, other.ip = context.ip

/-! ### Linked contexts -/

/-- The pin is the address of the newest context, and what each remembers links it to the next. -/
def Linked : Option String → List Context → Prop
  | pin, [] => pin = none
  | pin, context :: older => pin = some context.ip ∧ Linked context.previous older

variable {pin : Option String} {context : Context}

theorem Linked.of_append {newer older : List Context} (h : Linked pin (newer ++ context :: older)) :
    Linked context.previous older := by
  induction newer generalizing pin with
  | nil => exact h.2
  | cons first newer ih => exact ih h.2

variable {l : List Context}

theorem Linked.filter_same (h : Linked pin l) (hnodup : l.Nodup)
    (hlast : l.getLast? ≠ some context) (hsame : ∀ other ∈ l, other.ip = context.ip) :
    Linked pin (l.filter (· ≠ context)) := by
  induction l generalizing pin with
  | nil => exact h
  | cons first rest ih =>
    obtain ⟨hnot, hrest⟩ := nodup_cons.mp hnodup
    have holder : ∀ other ∈ rest, other.ip = context.ip := by
      intro other hother
      exact hsame other (mem_cons_of_mem _ hother)
    by_cases hfirst : first = context
    · -- the next one, which there is, pins the same address
      subst hfirst
      have hkept : rest.filter (· ≠ first) = rest := by
        apply List.filter_eq_self.mpr
        intro other hother
        simp only [ne_eq, decide_not, Bool.not_eq_eq_eq_not, Bool.not_true, decide_eq_false_iff_not]
        rintro rfl
        exact hnot hother
      cases rest with
      | nil => exact absurd rfl hlast
      | cons second older =>
        rw [filter_cons_of_neg (by simp), hkept]
        obtain ⟨hpin, _, holdest⟩ := h
        refine ⟨?_, holdest⟩
        rw [hpin, holder second mem_cons_self]
    · have hlast' : rest.getLast? ≠ some context := by
        cases rest with
        | nil => simp
        | cons second older =>
          rw [getLast?_cons_cons] at hlast
          exact hlast
      rw [filter_cons_of_pos (by simpa using hfirst)]
      exact ⟨h.1, ih h.2 hrest hlast' holder⟩

theorem Linked.previous_same (h : Linked pin l) (hmem : context ∈ l)
    (hlast : l.getLast? ≠ some context) (hsame : ∀ other ∈ l, other.ip = context.ip) :
    context.previous = pin := by
  obtain ⟨newer, older, rfl⟩ := append_of_mem hmem
  have hpin : pin = some context.ip := by
    cases newer with
    | nil => exact h.1
    | cons first newer => rw [h.1, hsame first mem_cons_self]
  cases older with
  | nil => exact absurd (by rw [getLast?_append, getLast?_singleton, Option.some_or]) hlast
  | cons next older =>
    have hprev := h.of_append.1
    rw [hprev, hsame next (by simp), hpin]

/-! ### Steps -/

/-- The contexts are told apart by their numbers, and those of each hostname are linked. -/
structure PinState.Ordered (s : PinState) : Prop where
  nodup : s.opened.Nodup
  fresh : ∀ context ∈ s.opened, context.number < s.entered
  linked : ∀ hostname, Linked (s.pins hostname) (s.contexts hostname)

theorem ordered_initial : PinState.initial.Ordered where
  nodup := nodup_nil
  fresh := by simp [PinState.initial]
  linked := fun _ => rfl

variable {s : PinState}

theorem PinState.nodup_contexts (h : s.Ordered) (hostname : String) :
    (s.contexts hostname).Nodup := h.nodup.filter _

theorem PinState.contexts_enter (s : PinState) (hostname ip name : String) :
    (s.enter hostname ip).contexts name =
      if hostname = name then ⟨s.entered, hostname, ip, s.pins hostname⟩ :: s.contexts name
      else s.contexts name := by
  simp only [contexts, enter, filter_cons, decide_eq_true_eq]

theorem PinState.contexts_leave (s : PinState) (context : Context) (name : String) :
    (s.leave context).contexts name = (s.contexts name).filter (· ≠ context) := by
  simp only [contexts, leave]
  rw [filter_comm]

theorem PinState.contexts_leave_of_ne (s : PinState) {name : String}
    (hne : name ≠ context.hostname) : (s.leave context).contexts name = s.contexts name := by
  rw [contexts_leave]
  apply List.filter_eq_self.mpr
  intro other hother
  have hname : other.hostname = name := by simpa using (List.mem_filter.mp hother).2
  simp only [ne_eq, decide_not, Bool.not_eq_eq_eq_not, Bool.not_true, decide_eq_false_iff_not]
  rintro rfl
  exact hne hname.symm

theorem PinState.Ordered.enter (h : s.Ordered) (hostname ip : String) :
    (s.enter hostname ip).Ordered where
  nodup := by
    refine nodup_cons.mpr ⟨fun hmem => ?_, h.nodup⟩
    exact absurd (h.fresh _ hmem) (Nat.lt_irrefl _)
  fresh := by
    intro context hcontext
    rcases mem_cons.mp hcontext with rfl | hold
    · exact Nat.lt_succ_self _
    · exact Nat.lt_succ_of_lt (h.fresh context hold)
  linked := by
    intro name
    rw [PinState.contexts_enter]
    by_cases hname : hostname = name
    · subst hname
      rw [if_pos rfl]
      exact ⟨update_self .., h.linked hostname⟩
    · rw [if_neg hname]
      simp only [PinState.enter, update_of_ne (Ne.symm hname)]
      exact h.linked name

theorem PinState.Ordered.leave (h : s.Ordered) (hopen : context ∈ s.opened)
    (horder : (PinEvent.leave context).InOrder s) :
    (s.leave context).Ordered where
  nodup := h.nodup.filter _
  fresh := fun other hother => h.fresh other (List.mem_filter.mp hother).1
  linked := by
    intro name
    by_cases hname : name = context.hostname
    · subst hname
      rw [PinState.contexts_leave]
      simp only [PinState.leave, update_self]
      have hlinked := h.linked context.hostname
      have hnodup := s.nodup_contexts h context.hostname
      rcases horder with hhead | ⟨hlast, hsame⟩
      · obtain ⟨older, hcontexts⟩ := head?_eq_some_iff.mp hhead
        rw [hcontexts] at hlinked hnodup ⊢
        rw [filter_cons_of_neg (by simp), List.filter_eq_self.mpr]
        · exact hlinked.2
        · intro other hother
          simp only [ne_eq, decide_not, Bool.not_eq_eq_eq_not, Bool.not_true, decide_eq_false_iff_not]
          rintro rfl
          exact (nodup_cons.mp hnodup).1 hother
      · have hmem : context ∈ s.contexts context.hostname :=
          List.mem_filter.mpr ⟨hopen, decide_eq_true rfl⟩
        rw [hlinked.previous_same hmem hlast hsame]
        exact hlinked.filter_same hnodup hlast hsame
    · rw [s.contexts_leave_of_ne hname]
      simp only [PinState.leave, update_of_ne hname]
      exact h.linked name

theorem PinState.Ordered.step {s' : PinState} {e : PinEvent} (h : s.Ordered)
    (hstep : pinStep s e s') (horder : e.InOrder s) : s'.Ordered := by
  cases e with
  | enter hostname ip =>
    rw [show s' = s.enter hostname ip from hstep]
    exact h.enter hostname ip
  | leave context =>
    obtain ⟨hopen, rfl⟩ := hstep
    exact h.leave hopen horder

theorem getaddrinfoWithPins_pinned {resolver : Resolver} {localPins pins : Pins} {name ip : String}
    {port : Port} (hlocal : localPins name = none) (hpin : pins name = some ip) :
    getaddrinfoWithPins resolver localPins pins (.str name) port =
      pinnedAddrinfo resolver.int ip port := by
  simp only [getaddrinfoWithPins, hlocal, hpin]

theorem PinState.Ordered.protects (h : s.Ordered) (hostname : String) :
    s.Protected hostname := by
  have hlinked := h.linked hostname
  refine ⟨fun hopen => ?_, fun hclosed => ?_⟩
  · cases hcontexts : s.contexts hostname with
    | nil => exact absurd hcontexts hopen
    | cons newest older =>
      rw [hcontexts] at hlinked
      refine ⟨newest, mem_cons_self, ?_⟩
      intro resolver localPins port hlocal
      exact getaddrinfoWithPins_pinned hlocal hlinked.1
  · rw [hclosed] at hlinked
    exact hlinked

/-- While the contexts of each hostname are left in order, every open context is protected, and
    without open contexts there is no pin. -/
theorem pins_protected {hist : List PinEvent} {s : PinState}
    (hrun : Run (fun s e s' => pinStep s e s' ∧ e.InOrder s) .initial hist s) (hostname : String) :
    s.Protected hostname := by
  have hordered : s.Ordered := by
    apply Run.invariant ordered_initial _ hrun
    intro s e s' hs hstep
    exact hs.step hstep.1 hstep.2
  exact hordered.protects hostname

/-- Two contexts of a hostname, one inside the other, and the outer one left as well. -/
def nested : PinState :=
  (((PinState.initial.enter "a" "1.1.1.1").enter "a" "2.2.2.2").leave
    ⟨1, "a", "2.2.2.2", some "1.1.1.1"⟩).leave ⟨0, "a", "1.1.1.1", none⟩

theorem nested_run : Run (fun s e s' => pinStep s e s' ∧ e.InOrder s) .initial
    [.leave ⟨0, "a", "1.1.1.1", none⟩, .leave ⟨1, "a", "2.2.2.2", some "1.1.1.1"⟩,
      .enter "a" "2.2.2.2", .enter "a" "1.1.1.1"] nested := by
  apply Run.cons _ ⟨⟨by decide, rfl⟩, .inl (by decide)⟩
  apply Run.cons _ ⟨⟨by decide, rfl⟩, .inl (by decide)⟩
  apply Run.cons _ ⟨rfl, trivial⟩
  exact Run.nil.cons ⟨rfl, trivial⟩

theorem pins_protected_sample : nested.contexts "a" = [] ∧ nested.Protected "a" :=
  ⟨by decide, pins_protected nested_run "a"⟩

/-- Two overlapping contexts of one address, with the first one left, and with both left. -/
def overlapped : PinState :=
  ((PinState.initial.enter "a" "1.1.1.1").enter "a" "1.1.1.1").leave ⟨0, "a", "1.1.1.1", none⟩

def overlappedClosed : PinState := overlapped.leave ⟨1, "a", "1.1.1.1", some "1.1.1.1"⟩

/-- The first of two overlapping contexts removes the pin of the second, and the second sets the
    pin of the first again. -/
theorem overlapping_unprotected :
    Run pinStep .initial [.leave ⟨0, "a", "1.1.1.1", none⟩, .enter "a" "1.1.1.1", .enter "a" "1.1.1.1"]
      overlapped ∧
    pinStep overlapped (.leave ⟨1, "a", "1.1.1.1", some "1.1.1.1"⟩) overlappedClosed ∧
    ¬ overlapped.Protected "a" ∧ ¬ overlappedClosed.Protected "a" := by
  refine ⟨?_, ⟨by decide, rfl⟩, fun hprotected => ?_, fun hprotected => ?_⟩
  · apply Run.cons _ ⟨by decide, rfl⟩
    apply Run.cons _ rfl
    exact Run.nil.cons rfl
  · -- the lookup goes to the resolver, which need not answer with the pinned address
    obtain ⟨context, -, hlookup⟩ := hprotected.1 (by decide)
    have hasked := hlookup ⟨fun _ => none, fun _ _ => .error .gaierror⟩ (fun _ => none) .none rfl
    have hunpinned : overlapped.pins "a" = none := by decide
    simp [getaddrinfoWithPins, hunpinned, pinnedAddrinfo, Port.toInt, bind, Except.bind] at hasked
  · have hpin := hprotected.2 (by decide)
    revert hpin
    decide

end MultiRag.SsrfGuard
