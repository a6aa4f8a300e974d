import Mathlib.Data.List.Basic

/-!
# Messages in a network of relays

Nodes hand frames to a network that may lose, repeat, reorder and misdeliver them, but makes up none. A node
sends what was submitted to it, and what arrived there after the change that relaying makes. `Explained` says
so of one event, from the events before it. In a history of explained events every message that is sent or
delivered has a `Path` from a submission, over the links that it was sent on (`Admissible.path_of_sent`,
`Admissible.reaches_of_delivered`), and what relaying changes is counted along the path (`Path.relates`).
-/

namespace Relaying

variable {ι Msg Frame : Type*}

/-- What happens at a node. -/
inductive Event (Msg Frame : Type*) where
  | submitted (message : Msg)
  | arrived (frame : Frame)
  | sent (frame : Frame)
  | delivered (message : Msg)
  deriving DecidableEq

/-- The message of a frame, and the message as it is handed on after it arrived. -/
structure Rules (Msg Frame : Type*) where
  decode : Frame → Option Msg
  relay : Msg → Option Msg

variable (rules : Rules Msg Frame)

/-- What a node may send. -/
inductive Held (history : List (ι × Event Msg Frame)) (node : ι) : Msg → Prop
  | submitted {message : Msg} (mem : (node, .submitted message) ∈ history) : Held history node message
  | relayed {frame : Frame} {before message : Msg} (mem : (node, .arrived frame) ∈ history)
      (decode : rules.decode frame = some before) (relay : rules.relay before = some message) :
      Held history node message

/-- What a node may deliver: also what has just arrived. -/
inductive Known (history : List (ι × Event Msg Frame)) (node : ι) : Msg → Prop
  | held {message : Msg} (held : Held rules history node message) : Known history node message
  | arrived {frame : Frame} {message : Msg} (mem : (node, .arrived frame) ∈ history)
      (decode : rules.decode frame = some message) : Known history node message

/-- An event that follows from the events before it. -/
inductive Explained (history : List (ι × Event Msg Frame)) (node : ι) : Event Msg Frame → Prop
  | submitted (message : Msg) : Explained history node (.submitted message)
  | arrived {frame : Frame} {sender : ι} (mem : (sender, .sent frame) ∈ history) :
      Explained history node (.arrived frame)
  | sent {frame : Frame} {message : Msg} (held : Held rules history node message)
      (decode : rules.decode frame = some message) : Explained history node (.sent frame)
  | delivered {message : Msg} (known : Known rules history node message) :
      Explained history node (.delivered message)

inductive Admissible : List (ι × Event Msg Frame) → Prop
  | nil : Admissible []
  | snoc {history : List (ι × Event Msg Frame)} {node : ι} {event : Event Msg Frame}
      (before : Admissible history) (explained : Explained rules history node event) :
      Admissible (history ++ [(node, event)])

/-- A message that a node holds, from its submission over `links` links. -/
inductive Path (history : List (ι × Event Msg Frame)) (origin : ι × Msg) : ℕ → ι → Msg → Prop
  | submitted (mem : (origin.1, .submitted origin.2) ∈ history) : Path history origin 0 origin.1 origin.2
  | crossed {links : ℕ} {sender node : ι} {frame : Frame} {before message : Msg}
      (path : Path history origin links sender before) (sent : (sender, .sent frame) ∈ history)
      (decode : rules.decode frame = some before) (arrived : (node, .arrived frame) ∈ history)
      (relay : rules.relay before = some message) : Path history origin (links + 1) node message

/-- A message that came to a node, held there or as it crossed the last link. -/
inductive Reaches (history : List (ι × Event Msg Frame)) (origin : ι × Msg) : ℕ → ι → Msg → Prop
  | held {links : ℕ} {node : ι} {message : Msg} (path : Path rules history origin links node message) :
      Reaches history origin links node message
  | arrived {links : ℕ} {sender node : ι} {frame : Frame} {message : Msg}
      (path : Path rules history origin links sender message) (sent : (sender, .sent frame) ∈ history)
      (decode : rules.decode frame = some message) (arrived : (node, .arrived frame) ∈ history) :
      Reaches history origin (links + 1) node message

variable {rules}

/-! ## Longer histories -/

section Mono

variable {history history' : List (ι × Event Msg Frame)} {node : ι} {message : Msg}
  (hsub : history ⊆ history')

include hsub

theorem Held.mono (h : Held rules history node message) : Held rules history' node message := by
  cases h with
  | submitted mem => exact .submitted (hsub mem)
  | relayed mem decode relay => exact .relayed (hsub mem) decode relay

theorem Known.mono (h : Known rules history node message) : Known rules history' node message := by
  cases h with
  | held held => exact .held (held.mono hsub)
  | arrived mem decode => exact .arrived (hsub mem) decode

theorem Explained.mono {event : Event Msg Frame} (h : Explained rules history node event) :
    Explained rules history' node event := by
  cases h with
  | submitted message => exact .submitted message
  | arrived mem => exact .arrived (hsub mem)
  | sent held decode => exact .sent (held.mono hsub) decode
  | delivered known => exact .delivered (known.mono hsub)

theorem Path.mono {origin : ι × Msg} {links : ℕ} (h : Path rules history origin links node message) :
    Path rules history' origin links node message := by
  induction h with
  | submitted mem => exact .submitted (hsub mem)
  | crossed path sent decode arrived relay ih => exact .crossed ih (hsub sent) decode (hsub arrived) relay

theorem Reaches.mono {origin : ι × Msg} {links : ℕ} (h : Reaches rules history origin links node message) :
    Reaches rules history' origin links node message := by
  cases h with
  | held path => exact .held (path.mono hsub)
  | arrived path sent decode arrived => exact .arrived (path.mono hsub) (hsub sent) decode (hsub arrived)

end Mono

variable {history : List (ι × Event Msg Frame)} {node : ι}

/-- What a node does at once is explained by what came before all of it. -/
theorem Admissible.append (h : Admissible rules history) {events : List (Event Msg Frame)}
    (hexplained : ∀ event ∈ events, Explained rules history node event) :
    Admissible rules (history ++ events.map fun event => (node, event)) := by
  induction events generalizing history with
  | nil => rwa [List.map_nil, List.append_nil]
  | cons event rest ih =>
    have hnext := ih (h.snoc (hexplained event List.mem_cons_self)) fun later hmem =>
      (hexplained later (List.mem_cons_of_mem _ hmem)).mono (List.subset_append_left _ _)
    rwa [List.append_assoc] at hnext

/-! ## Paths -/

/-- A frame that arrived was sent before. -/
theorem Admissible.sent_of_arrived (h : Admissible rules history) {frame : Frame}
    (hmem : (node, .arrived frame) ∈ history) : ∃ sender, (sender, .sent frame) ∈ history := by
  induction h with
  | nil => cases hmem
  | snoc before explained ih =>
    obtain hold | hnew := List.mem_append.mp hmem
    · obtain ⟨sender, hsent⟩ := ih hold
      exact ⟨sender, List.mem_append_left _ hsent⟩
    · cases List.mem_singleton.mp hnew
      cases explained with
      | arrived mem => exact ⟨_, List.mem_append_left _ mem⟩

/-- Frames with a path lead to paths of the messages that a node holds. -/
theorem Held.exists_path (h : Admissible rules history) {message : Msg}
    (hheld : Held rules history node message)
    (hsent : ∀ sender frame, (sender, .sent frame) ∈ history →
      ∃ origin links message, Path rules history origin links sender message ∧
        rules.decode frame = some message) :
    ∃ origin links, Path rules history origin links node message := by
  cases hheld with
  | submitted mem => exact ⟨(node, message), 0, .submitted mem⟩
  | relayed mem decode relay =>
    obtain ⟨sender, hmem⟩ := h.sent_of_arrived mem
    obtain ⟨origin, links, before, hpath, hdecode⟩ := hsent sender _ hmem
    rw [decode, Option.some.injEq] at hdecode
    subst hdecode
    exact ⟨origin, links + 1, hpath.crossed hmem decode mem relay⟩

/-- **What is sent has a path** from its submission. -/
theorem Admissible.path_of_sent (h : Admissible rules history) :
    ∀ sender frame, (sender, .sent frame) ∈ history →
      ∃ origin links message, Path rules history origin links sender message ∧
        rules.decode frame = some message := by
  induction h with
  | nil => simp
  | snoc before explained ih =>
    intro sender frame hmem
    obtain hold | hnew := List.mem_append.mp hmem
    · obtain ⟨origin, links, message, hpath, hdecode⟩ := ih sender frame hold
      exact ⟨origin, links, message, hpath.mono (List.subset_append_left _ _), hdecode⟩
    · cases List.mem_singleton.mp hnew
      cases explained with
      | sent held decode =>
        obtain ⟨origin, links, hpath⟩ := held.exists_path before ih
        exact ⟨origin, links, _, hpath.mono (List.subset_append_left _ _), decode⟩

theorem Admissible.path_of_held (h : Admissible rules history) {message : Msg}
    (hheld : Held rules history node message) :
    ∃ origin links, Path rules history origin links node message :=
  hheld.exists_path h h.path_of_sent

/-- **What is delivered has come from a submission**, at a time when it had. -/
theorem Admissible.reaches_of_delivered (h : Admissible rules history) {message : Msg}
    {before after : List (ι × Event Msg Frame)}
    (hsplit : history = before ++ (node, .delivered message) :: after) :
    ∃ origin links, Reaches rules before origin links node message := by
  induction h generalizing after with
  | nil => simp at hsplit
  | @snoc history last event earlier explained ih =>
    obtain rfl | ⟨rest, final, rfl⟩ := List.eq_nil_or_concat after
    · obtain ⟨rfl, hlast⟩ := List.append_inj' hsplit rfl
      cases hlast
      cases explained with
      | delivered known =>
        cases known with
        | held held =>
          obtain ⟨origin, links, hpath⟩ := earlier.path_of_held held
          exact ⟨origin, links, .held hpath⟩
        | arrived mem decode =>
          obtain ⟨sender, hmem⟩ := earlier.sent_of_arrived mem
          obtain ⟨origin, links, sent, hpath, hdecode⟩ := earlier.path_of_sent sender _ hmem
          rw [decode, Option.some.injEq] at hdecode
          subst hdecode
          exact ⟨origin, links + 1, .arrived hpath hmem decode mem⟩
    · rw [List.concat_eq_append, ← List.cons_append, ← List.append_assoc] at hsplit
      exact ih (List.append_inj' hsplit rfl).1

theorem Path.submitted_mem {origin : ι × Msg} {links : ℕ} {message : Msg}
    (h : Path rules history origin links node message) : (origin.1, .submitted origin.2) ∈ history := by
  induction h with
  | submitted mem => exact mem
  | crossed path sent decode arrived relay ih => exact ih

theorem Reaches.submitted_mem {origin : ι × Msg} {links : ℕ} {message : Msg}
    (h : Reaches rules history origin links node message) :
    (origin.1, .submitted origin.2) ∈ history := by
  cases h with
  | held path => exact path.submitted_mem
  | arrived path sent decode arrived => exact path.submitted_mem

/-! ## What relaying changes -/

/-- **The rule for paths.** What holds of a message and itself over no links, and is kept by relaying over
one more, holds of the ends of every path. -/
theorem Path.relates {R : Msg → ℕ → Msg → Prop} (hrefl : ∀ message, R message 0 message)
    (hrelay : ∀ {first links before message}, R first links before → rules.relay before = some message →
      R first (links + 1) message)
    {origin : ι × Msg} {links : ℕ} {message : Msg} (h : Path rules history origin links node message) :
    R origin.2 links message := by
  induction h with
  | submitted mem => exact hrefl _
  | crossed path sent decode arrived relay ih => exact hrelay ih relay

end Relaying
