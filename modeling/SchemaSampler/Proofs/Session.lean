import Mathlib.Data.List.Basic
import SchemaSampler.Generator
import SchemaSampler.Random.Cycle

namespace SchemaSampler

open SchemaSampler.Random

-- Of the values of a type, `taken` are wanted at most.
inductive Request where
  | next (type : String)
  | values (type : String) (count taken : Nat)
  | results (text : String) (bindings : List (String × Json)) (count : Nat)
  | sample (strategy : Strategy)

namespace Request

def strategy (compiled : Compiled) : Request → Except GenerationError Strategy
  | next type => compiled.type type
  | values type _ _ => compiled.type type
  | results text bindings _ => compiled.queryResult text bindings
  | sample strategy => .ok strategy

def count : Request → Nat
  | next _ => 1
  | values _ count taken => min taken count
  | results _ _ count => count
  | sample _ => 1

def draws (compiled : Compiled) (request : Request) : List Strategy :=
  match request.strategy compiled with
  | .ok strategy => List.replicate request.count strategy
  | .error _ => []

def withoutBindings : Request → Request
  | results text _ count => results text [] count
  | other => other

end Request

inductive Answered (compiled : Compiled) (request : Request) :
    Except GenerationError (List Json) → Prop where
  | refused (cause : request.strategy compiled = .error error) :
      Answered compiled request (.error error)
  | drawn (found : request.strategy compiled = .ok strategy) (each : values.length = request.count) :
      Answered compiled request (.ok values)

abbrev Yielded (σ : Type) := List Json × Option Halt × Generator σ

-- The draw that halted is one more than the values.
def haltedDraws : Option Halt → Nat
  | none => 0
  | some _ => 1

namespace Generator

variable {σ : Type} [Source σ]

def yielded : Except Halt Json × Generator σ → Yielded σ
  | (.ok value, generator) => ([value], none, generator)
  | (.error reason, generator) => ([], some reason, generator)

def sampleEach (generator : Generator σ) : List Strategy → Yielded σ
  | [] => ([], none, generator)
  | strategy :: rest =>
    match generator.sample strategy with
    | (.error reason, generator) => ([], some reason, generator)
    | (.ok value, generator) =>
      let (values, halted, last) := generator.sampleEach rest
      (value :: values, halted, last)

-- A values request is answered by an iterator that is then given up.
def answer (generator : Generator σ) : Request → Except GenerationError (Yielded σ)
  | .next type => (generator.next type).map yielded
  | .values type count taken => (generator.values type count).map fun pending =>
    let (values, halted, _, generator) := pending.take generator taken
    (values, halted, generator)
  | .results text bindings count => generator.queryResults text bindings count
  | .sample strategy => .ok (yielded (generator.sample strategy))

def serve (generator : Generator σ) :
    List Request → List (Except GenerationError (List Json)) × Option Halt × Generator σ
  | [] => ([], none, generator)
  | request :: rest =>
    match generator.answer request with
    | .error cause =>
      let (answers, halted, last) := generator.serve rest
      (.error cause :: answers, halted, last)
    | .ok (values, some reason, generator) => ([.ok values], some reason, generator)
    | .ok (values, none, generator) =>
      let (answers, halted, last) := generator.serve rest
      (.ok values :: answers, halted, last)

section

variable {generator next : Generator σ} {strategy : Strategy} {rest first : List Strategy}
  {value : Json} {values : List Json} {reason : Halt}

theorem sampleEach_halts (drawn : generator.sample strategy = (.error reason, next)) :
    generator.sampleEach (strategy :: rest) = ([], some reason, next) := by
  simp [sampleEach, drawn]

theorem sampleEach_goes_on (drawn : generator.sample strategy = (.ok value, next)) :
    generator.sampleEach (strategy :: rest) =
      (value :: (next.sampleEach rest).1, (next.sampleEach rest).2) := by
  simp [sampleEach, drawn]

theorem append_halts (second : List Strategy)
    (drawn : generator.sampleEach first = (values, some reason, next)) :
    generator.sampleEach (first ++ second) = (values, some reason, next) := by
  induction first generalizing generator values with
  | nil => cases drawn
  | cons strategy rest ih =>
    rcases one : generator.sample strategy with ⟨other | value, middle⟩
    · rw [sampleEach_halts one] at drawn
      rw [List.cons_append, sampleEach_halts one, drawn]
    · rw [sampleEach_goes_on one] at drawn
      obtain ⟨rfl, same⟩ := Prod.mk.inj drawn
      rw [List.cons_append, sampleEach_goes_on one, ih (Prod.ext rfl same)]

theorem append_goes_on (second : List Strategy)
    (drawn : generator.sampleEach first = (values, none, next)) :
    generator.sampleEach (first ++ second) =
      (values ++ (next.sampleEach second).1, (next.sampleEach second).2) := by
  induction first generalizing generator values with
  | nil =>
    cases drawn
    rfl
  | cons strategy rest ih =>
    rcases one : generator.sample strategy with ⟨other | value, middle⟩
    · rw [sampleEach_halts one] at drawn
      cases drawn
    · rw [sampleEach_goes_on one] at drawn
      obtain ⟨rfl, same⟩ := Prod.mk.inj drawn
      rw [List.cons_append, sampleEach_goes_on one, ih (Prod.ext rfl same)]
      rfl

end

section

variable (generator : Generator σ) (strategy : Strategy)

theorem sampleEach_compiled (strategies : List Strategy) :
    (generator.sampleEach strategies).2.2.compiled = generator.compiled := by
  induction strategies generalizing generator with
  | nil => rfl
  | cons strategy rest ih =>
    have kept : (generator.sample strategy).2.compiled = generator.compiled := rfl
    rcases one : generator.sample strategy with ⟨reason | value, next⟩
    · rw [sampleEach_halts one]
      rwa [one] at kept
    · rw [sampleEach_goes_on one, ih next]
      rwa [one] at kept

theorem sampleEach_drawn (strategies : List Strategy) :
    (generator.sampleEach strategies).2.2.drawn =
      generator.drawn + (generator.sampleEach strategies).1.length +
        haltedDraws (generator.sampleEach strategies).2.1 := by
  induction strategies generalizing generator with
  | nil => rfl
  | cons strategy rest ih =>
    have counted : (generator.sample strategy).2.drawn = generator.drawn + 1 := rfl
    rcases one : generator.sample strategy with ⟨reason | value, next⟩
    · rw [sampleEach_halts one]
      rwa [one] at counted
    · rw [one] at counted
      dsimp only at counted
      rw [sampleEach_goes_on one]
      dsimp only
      rw [ih next, counted, List.length_cons]
      omega

theorem sampleEach_few (strategies : List Strategy) :
    (generator.sampleEach strategies).1.length +
      haltedDraws (generator.sampleEach strategies).2.1 ≤ strategies.length := by
  induction strategies generalizing generator with
  | nil => exact Nat.le_refl _
  | cons strategy rest ih =>
    rcases one : generator.sample strategy with ⟨reason | value, next⟩
    · rw [sampleEach_halts one]
      simp [haltedDraws]
    · have few := ih next
      rw [sampleEach_goes_on one]
      dsimp only [List.length_cons]
      omega

theorem sampleEach_length {strategies : List Strategy}
    (whole : (generator.sampleEach strategies).2.1 = none) :
    (generator.sampleEach strategies).1.length = strategies.length := by
  induction strategies generalizing generator with
  | nil => rfl
  | cons strategy rest ih =>
    rcases one : generator.sample strategy with ⟨reason | value, next⟩
    · rw [sampleEach_halts one] at whole
      cases whole
    · rw [sampleEach_goes_on one] at whole ⊢
      rw [List.length_cons, List.length_cons, ih next whole]

theorem yielded_eq : yielded (generator.sample strategy) = generator.sampleEach [strategy] := by
  rcases one : generator.sample strategy with ⟨reason | value, next⟩
  · rw [sampleEach_halts one, yielded]
  · rw [sampleEach_goes_on one, yielded, sampleEach]

theorem samples_eq (count : Nat) :
    generator.samples strategy count = generator.sampleEach (List.replicate count strategy) := by
  induction count generalizing generator with
  | zero => rfl
  | succ count ih =>
    rw [List.replicate_succ]
    rcases one : generator.sample strategy with ⟨reason | value, next⟩
    · rw [sampleEach_halts one]
      simp [samples, one]
    · rw [sampleEach_goes_on one, ← ih next]
      simp [samples, one]

end

end Generator

theorem Pending.take_eq {σ : Type} [Source σ] (pending : Pending) (generator : Generator σ)
    (taken : Nat) : pending.take generator taken =
      let (values, halted, last) :=
        generator.sampleEach (List.replicate (min taken pending.left) pending.strategy)
      (values, halted, { pending with left := pending.left - values.length - haltedDraws halted },
        last) := by
  induction taken generalizing pending generator with
  | zero => simp [take, Generator.sampleEach, haltedDraws]
  | succ taken ih =>
    obtain ⟨strategy, left⟩ := pending
    cases left with
    | zero => simp [take, next?, Generator.sampleEach, haltedDraws]
    | succ left =>
      dsimp only
      rw [Nat.succ_min_succ, List.replicate_succ]
      rcases one : generator.sample strategy with ⟨reason | value, next⟩
      · rw [Generator.sampleEach_halts one]
        simp [take, next?, one, haltedDraws]
      · rw [Generator.sampleEach_goes_on one]
        simp [take, next?, one, ih]

namespace Generator

variable {σ : Type} [Source σ] (generator : Generator σ)

theorem answer_eq (request : Request) : generator.answer request =
    (request.strategy generator.compiled).map fun strategy =>
      generator.sampleEach (List.replicate request.count strategy) := by
  cases request with
  | next type =>
    simp only [answer, Generator.next, Request.strategy, Request.count]
    cases generator.compiled.type type with
    | error cause => rfl
    | ok strategy => exact congrArg Except.ok (generator.yielded_eq strategy)
  | values type count taken =>
    simp only [answer, Generator.values, Request.strategy, Request.count]
    cases generator.compiled.type type with
    | error cause => rfl
    | ok strategy =>
      have drawn := Pending.take_eq ⟨strategy, count⟩ generator taken
      simp only [Except.map, drawn]
  | results text bindings count =>
    simp only [answer, queryResults, Request.strategy, Request.count]
    cases generator.compiled.queryResult text bindings with
    | error cause => rfl
    | ok strategy => exact congrArg Except.ok (generator.samples_eq strategy count)
  | sample strategy => exact congrArg Except.ok (generator.yielded_eq strategy)

section

variable {generator : Generator σ} {request : Request} {rest : List Request}

theorem serve_refused {cause : GenerationError}
    (refused : request.strategy generator.compiled = .error cause) :
    generator.serve (request :: rest) =
      (.error cause :: (generator.serve rest).1, (generator.serve rest).2) := by
  have answered := generator.answer_eq request
  rw [refused] at answered
  simp [serve, answered, Except.map]

theorem serve_halts {strategy : Strategy} {values : List Json} {reason : Halt}
    {next : Generator σ} (found : request.strategy generator.compiled = .ok strategy)
    (drawn : generator.sampleEach (List.replicate request.count strategy) =
      (values, some reason, next)) :
    generator.serve (request :: rest) = ([.ok values], some reason, next) := by
  have answered := generator.answer_eq request
  rw [found] at answered
  simp [serve, answered, Except.map, drawn]

theorem serve_goes_on {strategy : Strategy} {values : List Json} {next : Generator σ}
    (found : request.strategy generator.compiled = .ok strategy)
    (drawn : generator.sampleEach (List.replicate request.count strategy) = (values, none, next)) :
    generator.serve (request :: rest) =
      (.ok values :: (next.serve rest).1, (next.serve rest).2) := by
  have answered := generator.answer_eq request
  rw [found] at answered
  simp [serve, answered, Except.map, drawn]

theorem compiled_after {strategies : List Strategy} {yielded : Yielded σ}
    (drawn : generator.sampleEach strategies = yielded) :
    yielded.2.2.compiled = generator.compiled := by
  rw [← drawn, sampleEach_compiled]

end

def given : Except GenerationError (List Json) → List Json
  | .ok values => values
  | .error _ => []

theorem serve_draws (requests : List Request) :
    ((generator.serve requests).1.flatMap given, (generator.serve requests).2) =
      generator.sampleEach (requests.flatMap (Request.draws generator.compiled)) := by
  induction requests generalizing generator with
  | nil => rfl
  | cons request rest ih =>
    rw [List.flatMap_cons, Request.draws]
    cases asked : request.strategy generator.compiled with
    | error cause => simpa [serve_refused asked, given] using ih generator
    | ok strategy =>
      rcases drawn : generator.sampleEach (List.replicate request.count strategy) with
        ⟨values, none | reason, next⟩
      · rw [serve_goes_on asked drawn, append_goes_on _ drawn, ← compiled_after drawn, ← ih next]
        rfl
      · rw [serve_halts asked drawn, append_halts _ drawn]
        simp [given]

-- Refused requests may as well not have been made.
theorem serve_accepted (requests : List Request) :
    generator.serve (requests.filter fun request => (generator.answer request).isOk) =
      ((generator.serve requests).1.filter Except.isOk, (generator.serve requests).2) := by
  induction requests generalizing generator with
  | nil => rfl
  | cons request rest ih =>
    cases asked : request.strategy generator.compiled with
    | error cause =>
      have refused : ¬ (generator.answer request).isOk = true := by
        rw [answer_eq, asked]
        simp [Except.map, Except.isOk, Except.toBool]
      rw [List.filter_cons, if_neg refused, serve_refused asked, ih generator]
      rfl
    | ok strategy =>
      have accepted : (generator.answer request).isOk = true := by
        rw [answer_eq, asked]
        rfl
      rw [List.filter_cons, if_pos accepted]
      rcases drawn : generator.sampleEach (List.replicate request.count strategy) with
        ⟨values, none | reason, next⟩
      · have same : ∀ other : Request, (generator.answer other).isOk = (next.answer other).isOk := by
          intro other
          rw [answer_eq, answer_eq, compiled_after drawn]
          cases other.strategy generator.compiled <;> rfl
        rw [serve_goes_on asked drawn, serve_goes_on asked drawn]
        simp only [same, ih next]
        rfl
      · rw [serve_halts asked drawn, serve_halts asked drawn]
        rfl

theorem serve_answers {requests : List Request} (whole : (generator.serve requests).2.1 = none) :
    List.Forall₂ (Answered generator.compiled) requests (generator.serve requests).1 := by
  induction requests generalizing generator with
  | nil => exact .nil
  | cons request rest ih =>
    cases asked : request.strategy generator.compiled with
    | error cause =>
      rw [serve_refused asked] at whole ⊢
      exact .cons (.refused asked) (ih generator whole)
    | ok strategy =>
      rcases drawn : generator.sampleEach (List.replicate request.count strategy) with
        ⟨values, none | reason, next⟩
      · rw [serve_goes_on asked drawn] at whole ⊢
        refine .cons (.drawn asked ?_) (compiled_after drawn ▸ ih next whole)
        have each := generator.sampleEach_length (congrArg (fun yielded => yielded.2.1) drawn)
        rwa [drawn, List.length_replicate] at each
      · rw [serve_halts asked drawn] at whole
        cases whole

theorem answer_withoutBindings (request : Request) :
    generator.answer request.withoutBindings = generator.answer request := by
  cases request <;> rfl

theorem serve_withoutBindings (requests : List Request) :
    generator.serve (requests.map Request.withoutBindings) = generator.serve requests := by
  induction requests generalizing generator with
  | nil => rfl
  | cons request rest ih => simp only [List.map_cons, serve, answer_withoutBindings, ih]

-- Unless a draw halts, as much is given as is wanted and left.
theorem take_left (pending : Pending) (taken : Nat) :
    let (values, halted, rest, _) := pending.take generator taken
    values.length + haltedDraws halted + rest.left = pending.left ∧
      (halted = none → values.length = min taken pending.left) := by
  have drawn := pending.take_eq generator taken
  rcases each : generator.sampleEach (List.replicate (min taken pending.left) pending.strategy)
    with ⟨values, halted, last⟩
  rw [each] at drawn
  have most : values.length + haltedDraws halted ≤ min taken pending.left := by
    have few := generator.sampleEach_few
      (List.replicate (min taken pending.left) pending.strategy)
    rwa [each, List.length_replicate] at few
  rw [drawn]
  dsimp only
  refine ⟨by omega, fun whole => ?_⟩
  have full := generator.sampleEach_length (by rw [each]; exact whole)
  rwa [each, List.length_replicate] at full

theorem serve_drawn (requests : List Request) :
    (generator.serve requests).2.2.drawn =
      generator.drawn + ((generator.serve requests).1.flatMap given).length +
        haltedDraws (generator.serve requests).2.1 := by
  have counted := generator.sampleEach_drawn (requests.flatMap (Request.draws generator.compiled))
  rwa [← serve_draws] at counted

theorem serve_few (requests : List Request) :
    ((generator.serve requests).1.flatMap given).length +
        haltedDraws (generator.serve requests).2.1 ≤
      (requests.flatMap (Request.draws generator.compiled)).length := by
  have few := generator.sampleEach_few (requests.flatMap (Request.draws generator.compiled))
  rwa [← serve_draws] at few

-- Counters of 64 bits show the same numbers while fewer than 2 ^ 64 draws are asked for. As the
-- count of draws never falls, it has then not wrapped around on the way either.
theorem serve_drawn_fits {requests : List Request}
    (fits : generator.drawn + (requests.flatMap (Request.draws generator.compiled)).length <
      Word.count 64) :
    (UInt64.ofNat (generator.serve requests).2.2.drawn).toNat =
      (generator.serve requests).2.2.drawn := by
  have few := generator.serve_few requests
  have counted := generator.serve_drawn requests
  have below : (generator.serve requests).2.2.drawn < Word.count 64 := by omega
  exact UInt64.toNat_ofNat_of_lt' below

theorem take_left_fits {pending : Pending} (fits : pending.left < Word.count 64) (taken : Nat) :
    (UInt64.ofNat (pending.take generator taken).2.2.1.left).toNat =
      (pending.take generator taken).2.2.1.left := by
  have falls : (pending.take generator taken).2.2.1.left ≤ pending.left := by
    rw [← (generator.take_left pending taken).1]
    exact Nat.le_add_left _ _
  exact UInt64.toNat_ofNat_of_lt' (Nat.lt_of_le_of_lt falls fits)

-- Every draw is counted. Neither refused requests nor bindings change anything, and an iterator
-- always knows what it has left.
theorem session_draws_singly (requests : List Request) :
    let (answers, halted, last) := generator.serve requests
    (answers.flatMap given, halted, last) =
        generator.sampleEach (requests.flatMap (Request.draws generator.compiled)) ∧
      last.drawn = generator.drawn + (answers.flatMap given).length + haltedDraws halted ∧
      (halted = none → List.Forall₂ (Answered generator.compiled) requests answers) ∧
      generator.serve (requests.filter fun request => (generator.answer request).isOk) =
        (answers.filter Except.isOk, halted, last) ∧
      (∀ others : List Request,
        others.map Request.withoutBindings = requests.map Request.withoutBindings →
          generator.serve others = (answers, halted, last)) ∧
      (∀ type count pending, last.values type count = .ok pending → pending.left = count) ∧
      ∀ (pending : Pending) (taken : Nat),
        let (values, stopped, rest, _) := pending.take last taken
        values.length + haltedDraws stopped + rest.left = pending.left ∧
          (stopped = none → values.length = min taken pending.left) := by
  rcases served : generator.serve requests with ⟨answers, halted, last⟩
  have draws := generator.serve_draws requests
  have counted := generator.serve_drawn requests
  rw [served] at draws counted
  refine ⟨draws, counted, fun whole => ?_, ?_, fun others alike => ?_, ?_, take_left last⟩
  · have each := @serve_answers σ _ generator requests
    rw [served] at each
    exact each whole
  · rw [serve_accepted, served]
  · rw [← serve_withoutBindings, alike, serve_withoutBindings, served]
  · intro type count pending asked
    rw [values] at asked
    cases found : last.compiled.type type with
    | error cause =>
      rw [found] at asked
      cases asked
    | ok strategy =>
      rw [found] at asked
      cases asked
      rfl

def quay : Schema :=
  (({} : Schema).withEnum "Mark" []).withObject "berth"
    [("free", .named "Boolean"), ("mark", .named "Mark")]

def quayRequests : List Request :=
  [.next "ghost", .values "berth" 4 2, .results "" [] 3, .next "Mark"]

def quayGenerator (compiled : Compiled) : Generator Cycle where
  compiled := compiled
  sampler := { source := { words := [0, 3000000000] } }

def quayBerth (free : Bool) : Json := .obj [("free", .bool free), ("mark", .null)]

-- Two of four values are taken, and two of four requests are refused.
theorem quay_draws_singly : ∃ compiled answers last, Setup.compile ⟨quay, {}, {}⟩ = .ok compiled ∧
    (quayGenerator compiled).serve quayRequests = (answers, none, last) ∧
    answers.map Except.isOk = [false, true, false, true] ∧
    answers.flatMap given = [quayBerth false, quayBerth true, .null] ∧
    last.drawn = 3 ∧ List.Forall₂ (Answered compiled) quayRequests answers := by
  obtain ⟨compiled, answers, last, compiles, served, accepted, values⟩ :
      ∃ compiled answers last, Setup.compile ⟨quay, {}, {}⟩ = .ok compiled ∧
        (quayGenerator compiled).serve quayRequests = (answers, none, last) ∧
        answers.map Except.isOk = [false, true, false, true] ∧
        answers.flatMap given = [quayBerth false, quayBerth true, .null] :=
    ⟨_, _, _, rfl, rfl, rfl, rfl⟩
  have run := session_draws_singly (quayGenerator compiled) quayRequests
  rw [served] at run
  obtain ⟨_, counted, answered, _⟩ := run
  rw [values] at counted
  exact ⟨compiled, answers, last, compiles, served, accepted, values, counted, answered rfl⟩

end Generator

end SchemaSampler
