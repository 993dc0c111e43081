import Mathlib.Data.List.Basic
import Argentum.Fs.Permission

/-!
# Argentum.User.ShParse

The command parser of the shell, `user/bin/sh.c`. `peek` and `get_token` read the line;
`cmd_parse_redir`, `cmd_parse_exec`, `cmd_parse_bg`, `cmd_parse_pipe` and `cmd_parse_list`
descend through it; and `cmd_null_terminate` writes the NULs that end its words and file names.

A pointer into the line is a position in it, and every byte past the line is the NUL that ends
it. A node is a value of `Cmd`, built once its fields are known: the redirections of a command
wrap its `EXEC` node, the first innermost, as `cmd_parse_redir` chains them. The arrays of an
`EXEC` node are `argv[MAXARG + 1]` and `eargv[MAXARG]`; the model keeps the words in lists and
logs every store into the two arrays with its index, as well as the message of too many
arguments, so that the log says where the parser stored. `malloc` does not fail. Every round of
a loop takes at least one byte, so the length of the line and one is enough fuel for each; `none`
is fuel that ran out.
-/

namespace Argentum.User

open Argentum.Fs (oRdonly oWronly oAppend oTrunc)

/-- `MAXBUF` and `MAXARG`. -/
def maxBuf : Nat := 1024
def maxArg : Nat := 32

/-- `O_CREAT` of newlib. -/
def oCreat : Nat := 0x0200

/-! ## Tokens -/

/-- `*s`: the byte at `s`, the NUL past the line. -/
def charAt (line : List Char) (s : Nat) : Char := line.getD s '\x00'

/-- `isspace(c)`. -/
def isSpace (c : Char) : Bool :=
  c == ' ' || c == '\t' || c == '\n' || c == '\x0b' || c == '\x0c' || c == '\r'

/-- `symbols`. -/
def symbols : List Char := ['&', ';', '<', '>', '|']

/-- `while (isspace(*s)) s++;` -/
def skipSpace (line : List Char) (s : Nat) : Nat :=
  s + ((line.drop s).takeWhile isSpace).length

/-- `while (*s && !isspace(*s) && (strchr(symbols, *s) == NULL)) s++;` -/
def skipWord (line : List Char) (s : Nat) : Nat :=
  s + ((line.drop s).takeWhile fun c => c != '\x00' && !isSpace c && !symbols.contains c).length

/-- `peek(s, tokens, &p)`: whether the next token starts with one of `tokens`, and `p`, moved to
that token, or left as it was at the end of the line. -/
def peek (line : List Char) (s : Nat) (tokens : List Char) : Bool × Nat :=
  if charAt line s = '\x00' then (false, s)
  else
    let t := skipSpace line s
    if charAt line t = '\x00' then (false, s) else (tokens.contains (charAt line t), t)

/-- `get_token(s, &p, &ep)`: the token, `'a'` for a word, `'+'` for `>>` and NUL at the end of
the line; `p`, where it starts; and `ep`, where it ends, left as it was at the end of the
line. -/
def getToken (line : List Char) (s : Nat) : Char × Nat × Nat :=
  let t := skipSpace line s
  let c := charAt line t
  if c = '\x00' then ('\x00', t, s)
  else if c = '&' ∨ c = ';' ∨ c = '<' ∨ c = '|' then (c, t, t + 1)
  else if c = '>' then
    if charAt line (t + 1) = '>' then ('+', t, t + 2) else ('>', t, t + 1)
  else ('a', t, skipWord line t)

/-! ## Commands -/

/-- A `struct RedirCmd` without the command it wraps: the file name runs from `name` to
`ename`. -/
structure Redir where
  fd : Nat
  name : Nat
  ename : Nat
  oflag : Nat
  deriving DecidableEq, Repr

/-- A `struct Cmd *`: `NULL`, or a node by its type. An `EXEC` node has the starts `argv` and
the ends `eargv` of its words, and `argc`; the `NULL` after the words is a store of the log. -/
inductive Cmd
  | null
  | exec (argv eargv : List Nat) (argc : Nat)
  | redir (cmd : Cmd) (r : Redir)
  | bg (cmd : Cmd)
  | list (left right : Cmd)
  | pipe (left right : Cmd)
  deriving DecidableEq, Repr

/-- What the parser does that its result does not show: the stores into `argv[i]` and
`eargv[i]` of the `EXEC` node it fills, and what it prints. -/
inductive ParseEvent
  | storeArgv (i : Nat)
  | storeEargv (i : Nat)
  | print (msg : String)
  deriving DecidableEq, Repr

/-- The loop of `cmd_parse_redir`, after the redirections `acc`. -/
def cmdParseRedirLoop (line : List Char) : Nat → Nat → List Redir → Option (List Redir × Nat)
  | 0, _, _ => none
  | fuel + 1, s, acc =>
    let (more, s) := peek line s ['<', '>']
    if !more then some (acc, s)
    else
      let (tok, _, s) := getToken line s
      -- `peek` saw `<` or `>`, so the token is `<`, `>` or `>>`
      let (fd, oflag) :=
        if tok = '<' then (0, oRdonly)
        else if tok = '>' then (1, oWronly ||| oCreat ||| oTrunc)
        else (1, oWronly ||| oCreat ||| oAppend)
      let (_, name, s) := getToken line s
      cmdParseRedirLoop line fuel s (acc ++ [⟨fd, name, s, oflag⟩])

/-- A command in its redirections, the first innermost. -/
def wrapRedirs (cmd : Cmd) (redirs : List Redir) : Cmd := redirs.foldl .redir cmd

/-- How the loop of `cmd_parse_exec` ends: before a token that ends the command or at the end
of the line, with the words and the redirections read, or at a word past `MAXARG`. -/
inductive ExecEnd
  | done (words : List (Nat × Nat)) (redirs : List Redir) (s : Nat)
  | tooMany
  deriving DecidableEq, Repr

/-- The loop of `cmd_parse_exec`, with `argc` the number of `words` read. -/
def cmdParseExecLoop (line : List Char) :
    Nat → List (Nat × Nat) → List Redir → Nat → List ParseEvent →
      Option (ExecEnd × List ParseEvent)
  | 0, _, _, _, _ => none
  | fuel + 1, words, redirs, s, log =>
    let (stop, s) := peek line s ['&', ';', '|']
    if stop then some (.done words redirs s, log)
    else
      -- `get_token` stores into `argv[argc]` before the count is checked
      let (tok, p, s) := getToken line s
      let log := log ++ [.storeArgv words.length]
      if tok = '\x00' then some (.done words redirs s, log)
      else if words.length > maxArg then
        some (.tooMany, log ++ [.print "Too many arguments (32 max)\n"])
      else
        let log := log ++ [.storeEargv words.length]
        match cmdParseRedirLoop line (line.length + 1) s redirs with
        | none => none
        | some (redirs, s') => cmdParseExecLoop line fuel (words ++ [(p, s)]) redirs s' log

/-- `cmd_parse_exec(s, &ep)`: the command and `ep`, or `NULL` with `ep` as it was. -/
def cmdParseExec (line : List Char) (s : Nat) (log : List ParseEvent) :
    Option (Cmd × Nat × List ParseEvent) := do
  let (redirs, s₁) ← cmdParseRedirLoop line (line.length + 1) s []
  let (e, log) ← cmdParseExecLoop line (line.length + 1) [] redirs s₁ log
  match e with
  | .tooMany => return (.null, s, log)
  | .done words redirs s₂ =>
    if words.length = 0 then return (.null, s, log)
    else
      -- `cmd->argv[argc] = NULL`
      return (wrapRedirs (.exec (words.map (·.1)) (words.map (·.2)) words.length) redirs,
        s₂, log ++ [.storeArgv words.length])

/-- The loop of `cmd_parse_bg`: each `&` wraps the command in a `BG` node. -/
def cmdParseBgLoop (line : List Char) : Nat → Cmd → Nat → Option (Cmd × Nat)
  | 0, _, _ => none
  | fuel + 1, cmd, s =>
    let (amp, s) := peek line s ['&']
    if amp then cmdParseBgLoop line fuel (.bg cmd) (getToken line s).2.2
    else some (cmd, s)

/-- `cmd_parse_bg(s, &p)`. -/
def cmdParseBg (line : List Char) (s : Nat) (log : List ParseEvent) :
    Option (Cmd × Nat × List ParseEvent) := do
  let (cmd, s, log) ← cmdParseExec line s log
  if cmd = .null then return (.null, s, log)
  else
    let (cmd, s) ← cmdParseBgLoop line (line.length + 1) cmd s
    return (cmd, s, log)

/-- `cmd_parse_pipe(s, &p)`: a `PIPE` node whose sides may each be `NULL`. -/
def cmdParsePipe (line : List Char) :
    Nat → Nat → List ParseEvent → Option (Cmd × Nat × List ParseEvent)
  | 0, _, _ => none
  | fuel + 1, s, log => do
    let (cmd, s, log) ← cmdParseBg line s log
    let (bar, s) := peek line s ['|']
    if bar then
      let (right, s, log) ← cmdParsePipe line fuel (getToken line s).2.2 log
      return (.pipe cmd right, s, log)
    else return (cmd, s, log)

/-- `cmd_parse_list(s)`: a `NULL` command before a `;` is dropped. -/
def cmdParseList (line : List Char) :
    Nat → Nat → List ParseEvent → Option (Cmd × List ParseEvent)
  | 0, _, _ => none
  | fuel + 1, s, log => do
    let (cmd, s, log) ← cmdParsePipe line (line.length + 1) s log
    let (semi, s) := peek line s [';']
    if semi then
      let s := (getToken line s).2.2
      if cmd = .null then cmdParseList line fuel s log
      else
        let (right, log) ← cmdParseList line fuel s log
        return (.list cmd right, log)
    else return (cmd, log)

/-- `cmd_null_terminate(cmd)`: the positions it writes a NUL to, the end of each word and of
each file name. -/
def cmdNullTerminate : Cmd → List Nat
  | .null => []
  | .exec _ eargv argc => eargv.take argc
  | .redir cmd r => r.ename :: cmdNullTerminate cmd
  | .bg cmd => cmdNullTerminate cmd
  | .list l r | .pipe l r => cmdNullTerminate l ++ cmdNullTerminate r

/-- `cmd_parse(s)` of the line `fgets` read: the command and the line with the NULs of
`cmd_null_terminate`, and the log. -/
def cmdParse (line : List Char) : Option (Cmd × List Char × List ParseEvent) := do
  let (cmd, log) ← cmdParseList line (line.length + 1) 0 []
  return (cmd, (cmdNullTerminate cmd).foldl (fun l p => l.set p '\x00') line, log)

example : (cmdParse "ls -l | wc > out\n".toList).map (·.1) =
    some (.pipe (.exec [0, 3] [2, 5] 2) (.redir (.exec [8] [10] 1) ⟨1, 13, 16, 0x601⟩)) := by
  decide +kernel

/-! ## Bounds -/

/-- A store into `argv[i]` with `i ≤ n`, or into `eargv[i]` with `i < n`: one that arrays of
`n + 1` and `n` slots have room for. -/
def ParseEvent.StoreBelow (n : Nat) : ParseEvent → Prop
  | .storeArgv i => i ≤ n
  | .storeEargv i => i < n
  | .print _ => True

/-- Every `EXEC` node of the command has from 1 to `n` words. -/
def Cmd.ArgcIn (n : Nat) : Cmd → Prop
  | .null => True
  | .exec _ _ argc => 1 ≤ argc ∧ argc ≤ n
  | .redir c _ | .bg c => c.ArgcIn n
  | .list l r | .pipe l r => l.ArgcIn n ∧ r.ArgcIn n

theorem wrapRedirs_argcIn {n : Nat} (redirs : List Redir) :
    ∀ cmd : Cmd, (wrapRedirs cmd redirs).ArgcIn n ↔ cmd.ArgcIn n := by
  induction redirs with
  | nil => intro cmd; rfl
  | cons r redirs ih =>
    intro cmd
    exact ih (.redir cmd r)

/-- What one round of the loop of `cmd_parse_exec` can do: end before a token that ends the
command, end at the end of the line after the store into `argv[argc]`, stop at a word past
`MAXARG`, or store a word and go on. -/
theorem cmdParseExecLoop_succ_cases {line : List Char} {fuel : Nat} {words : List (Nat × Nat)}
    {redirs : List Redir} {s : Nat} {log log' : List ParseEvent} {e : ExecEnd}
    (h : cmdParseExecLoop line (fuel + 1) words redirs s log = some (e, log')) :
    (∃ s', e = .done words redirs s' ∧ log' = log) ∨
    (∃ s', e = .done words redirs s' ∧ log' = log ++ [.storeArgv words.length]) ∨
    (maxArg < words.length ∧ e = .tooMany ∧
      log' = log ++ [.storeArgv words.length, .print "Too many arguments (32 max)\n"]) ∨
    (words.length ≤ maxArg ∧ ∃ w redirs' s', cmdParseExecLoop line fuel (words ++ [w]) redirs' s'
      (log ++ [.storeArgv words.length, .storeEargv words.length]) = some (e, log')) := by
  unfold cmdParseExecLoop at h
  rcases hp : peek line s ['&', ';', '|'] with ⟨stop, s₁⟩
  rcases ht : getToken line s₁ with ⟨tok, p, s₂⟩
  simp only [hp, ht] at h
  by_cases hstop : stop = true
  · simp only [hstop, if_true, Option.some.injEq, Prod.mk.injEq] at h
    exact .inl ⟨s₁, h.1.symm, h.2.symm⟩
  · simp only [hstop, Bool.false_eq_true, if_false] at h
    by_cases htok : tok = '\x00'
    · simp only [htok, if_true, Option.some.injEq, Prod.mk.injEq] at h
      exact .inr (.inl ⟨s₂, h.1.symm, h.2.symm⟩)
    · simp only [htok, if_false] at h
      by_cases hmax : words.length > maxArg
      · simp only [hmax, if_true, Option.some.injEq, Prod.mk.injEq] at h
        exact .inr (.inr (.inl ⟨hmax, h.1.symm, by rw [← h.2]; simp⟩))
      · simp only [hmax, if_false] at h
        rcases hr : cmdParseRedirLoop line (line.length + 1) s₂ redirs with _ | ⟨redirs', s'⟩
        · simp [hr] at h
        · simp only [hr, List.append_assoc, List.cons_append, List.nil_append] at h
          exact .inr (.inr (.inr ⟨by omega, (p, s₂), redirs', s', h⟩))

/-- The loop of `cmd_parse_exec` stores at most one slot past each array, and ends with at
most `MAXARG + 1` words: it counts a word against `MAXARG` only after storing it. -/
theorem cmdParseExecLoop_inv {line : List Char} {fuel : Nat} {words : List (Nat × Nat)}
    {redirs : List Redir} {s : Nat} {log log' : List ParseEvent} {e : ExecEnd}
    (hw : words.length ≤ maxArg + 1) (hlog : ∀ ev ∈ log, ev.StoreBelow (maxArg + 1))
    (h : cmdParseExecLoop line fuel words redirs s log = some (e, log')) :
    (∀ ev ∈ log', ev.StoreBelow (maxArg + 1)) ∧
      ∀ words' redirs' s', e = .done words' redirs' s' → words'.length ≤ maxArg + 1 := by
  induction fuel generalizing words redirs s log with
  | zero => simp [cmdParseExecLoop] at h
  | succ fuel ih =>
    rcases cmdParseExecLoop_succ_cases h with ⟨s', rfl, rfl⟩ | ⟨s', rfl, rfl⟩ |
      ⟨hmax, rfl, rfl⟩ | ⟨hmax, w, redirs', s', hrec⟩
    · exact ⟨hlog, fun _ _ _ he => by cases he; exact hw⟩
    · refine ⟨List.forall_mem_append.2 ⟨hlog, ?_⟩, fun _ _ _ he => by cases he; exact hw⟩
      simpa [ParseEvent.StoreBelow] using hw
    · refine ⟨List.forall_mem_append.2 ⟨hlog, ?_⟩, fun _ _ _ he => by cases he⟩
      simpa [ParseEvent.StoreBelow] using hw
    · -- a word under `MAXARG` stored at `argc` in both arrays
      refine ih (by simp; omega) (List.forall_mem_append.2 ⟨hlog, ?_⟩) hrec
      simp only [List.mem_cons, List.not_mem_nil, or_false, forall_eq_or_imp, forall_eq,
        ParseEvent.StoreBelow]
      omega

section Invariant

variable {line : List Char} {log log' : List ParseEvent}

/-- `cmd_parse_exec` adds stores at most one slot past each array, and returns `NULL` or a
command whose `EXEC` node has from 1 to `MAXARG + 1` words. -/
theorem cmdParseExec_inv {s s' : Nat} {cmd : Cmd}
    (hlog : ∀ ev ∈ log, ev.StoreBelow (maxArg + 1))
    (h : cmdParseExec line s log = some (cmd, s', log')) :
    cmd.ArgcIn (maxArg + 1) ∧ ∀ ev ∈ log', ev.StoreBelow (maxArg + 1) := by
  unfold cmdParseExec at h
  simp only [Option.bind_eq_bind, Option.bind_eq_some_iff, Prod.exists] at h
  obtain ⟨redirs, s₁, -, e, log₁, hloop, h⟩ := h
  obtain ⟨hlog₁, hwords⟩ := cmdParseExecLoop_inv (by simp) hlog hloop
  cases e with
  | tooMany =>
    simp only [Option.pure_def, Option.some.injEq, Prod.mk.injEq] at h
    obtain ⟨rfl, -, rfl⟩ := h
    exact ⟨trivial, hlog₁⟩
  | done words redirs' s₂ =>
    have hlen := hwords words redirs' s₂ rfl
    by_cases h0 : words.length = 0
    · simp only [h0, if_true, Option.pure_def, Option.some.injEq, Prod.mk.injEq] at h
      obtain ⟨rfl, -, rfl⟩ := h
      exact ⟨trivial, hlog₁⟩
    · simp only [h0, if_false, Option.pure_def, Option.some.injEq, Prod.mk.injEq] at h
      obtain ⟨rfl, -, rfl⟩ := h
      refine ⟨(wrapRedirs_argcIn _ _).2 ⟨by omega, hlen⟩, List.forall_mem_append.2 ⟨hlog₁, ?_⟩⟩
      simpa [ParseEvent.StoreBelow] using hlen

theorem cmdParseBgLoop_argcIn {n fuel s s' : Nat} {cmd cmd' : Cmd} (hcmd : cmd.ArgcIn n)
    (h : cmdParseBgLoop line fuel cmd s = some (cmd', s')) : cmd'.ArgcIn n := by
  induction fuel generalizing cmd s with
  | zero => simp [cmdParseBgLoop] at h
  | succ fuel ih =>
    unfold cmdParseBgLoop at h
    rcases hp : peek line s ['&'] with ⟨amp, s₁⟩
    simp only [hp] at h
    cases amp with
    | true => exact ih (show (Cmd.bg cmd).ArgcIn n from hcmd) (by simpa using h)
    | false =>
      simp only [Bool.false_eq_true, if_false, Option.some.injEq, Prod.mk.injEq] at h
      exact h.1 ▸ hcmd

theorem cmdParseBg_inv {s s' : Nat} {cmd : Cmd}
    (hlog : ∀ ev ∈ log, ev.StoreBelow (maxArg + 1))
    (h : cmdParseBg line s log = some (cmd, s', log')) :
    cmd.ArgcIn (maxArg + 1) ∧ ∀ ev ∈ log', ev.StoreBelow (maxArg + 1) := by
  unfold cmdParseBg at h
  simp only [Option.bind_eq_bind, Option.bind_eq_some_iff, Prod.exists] at h
  obtain ⟨cmd₁, s₁, log₁, hexec, h⟩ := h
  obtain ⟨hcmd₁, hlog₁⟩ := cmdParseExec_inv hlog hexec
  split at h
  · simp only [Option.pure_def, Option.some.injEq, Prod.mk.injEq] at h
    obtain ⟨rfl, -, rfl⟩ := h
    exact ⟨trivial, hlog₁⟩
  · simp only [Option.bind_eq_some_iff, Prod.exists, Option.pure_def, Option.some.injEq,
      Prod.mk.injEq] at h
    obtain ⟨cmd₂, s₂, hloop, rfl, -, rfl⟩ := h
    exact ⟨cmdParseBgLoop_argcIn hcmd₁ hloop, hlog₁⟩

theorem cmdParsePipe_inv {fuel s s' : Nat} {cmd : Cmd}
    (hlog : ∀ ev ∈ log, ev.StoreBelow (maxArg + 1))
    (h : cmdParsePipe line fuel s log = some (cmd, s', log')) :
    cmd.ArgcIn (maxArg + 1) ∧ ∀ ev ∈ log', ev.StoreBelow (maxArg + 1) := by
  induction fuel generalizing s log cmd s' log' with
  | zero => simp [cmdParsePipe] at h
  | succ fuel ih =>
    unfold cmdParsePipe at h
    simp only [Option.bind_eq_bind, Option.bind_eq_some_iff, Prod.exists] at h
    obtain ⟨cmd₁, s₁, log₁, hbg, h⟩ := h
    obtain ⟨hcmd₁, hlog₁⟩ := cmdParseBg_inv hlog hbg
    by_cases hbar : (peek line s₁ ['|']).1 = true
    · -- a `PIPE` node over the command and the rest of the pipeline
      rw [if_pos hbar] at h
      simp only [Option.bind_eq_some_iff, Prod.exists, Option.pure_def, Option.some.injEq,
        Prod.mk.injEq] at h
      obtain ⟨right, s₂, log₂, hrec, rfl, -, rfl⟩ := h
      obtain ⟨hright, hlog₂⟩ := ih hlog₁ hrec
      exact ⟨⟨hcmd₁, hright⟩, hlog₂⟩
    · rw [if_neg hbar] at h
      simp only [Option.pure_def, Option.some.injEq, Prod.mk.injEq] at h
      obtain ⟨rfl, -, rfl⟩ := h
      exact ⟨hcmd₁, hlog₁⟩

theorem cmdParseList_inv {fuel s : Nat} {cmd : Cmd}
    (hlog : ∀ ev ∈ log, ev.StoreBelow (maxArg + 1))
    (h : cmdParseList line fuel s log = some (cmd, log')) :
    cmd.ArgcIn (maxArg + 1) ∧ ∀ ev ∈ log', ev.StoreBelow (maxArg + 1) := by
  induction fuel generalizing s log cmd log' with
  | zero => simp [cmdParseList] at h
  | succ fuel ih =>
    unfold cmdParseList at h
    simp only [Option.bind_eq_bind, Option.bind_eq_some_iff, Prod.exists] at h
    obtain ⟨cmd₁, s₁, log₁, hpipe, h⟩ := h
    obtain ⟨hcmd₁, hlog₁⟩ := cmdParsePipe_inv hlog hpipe
    by_cases hsemi : (peek line s₁ [';']).1 = true
    · rw [if_pos hsemi] at h
      by_cases hnull : cmd₁ = .null
      · -- a `NULL` command before the `;` is dropped
        rw [if_pos hnull] at h
        exact ih hlog₁ h
      · rw [if_neg hnull] at h
        simp only [Option.bind_eq_some_iff, Prod.exists, Option.pure_def, Option.some.injEq,
          Prod.mk.injEq] at h
        obtain ⟨right, log₂, hrec, rfl, rfl⟩ := h
        obtain ⟨hright, hlog₂⟩ := ih hlog₁ hrec
        exact ⟨⟨hcmd₁, hright⟩, hlog₂⟩
    · rw [if_neg hsemi] at h
      simp only [Option.pure_def, Option.some.injEq, Prod.mk.injEq] at h
      obtain ⟨rfl, rfl⟩ := h
      exact ⟨hcmd₁, hlog₁⟩

theorem cmdParse_inv {cmd : Cmd} {line' : List Char} (h : cmdParse line = some (cmd, line', log)) :
    cmd.ArgcIn (maxArg + 1) ∧ ∀ ev ∈ log, ev.StoreBelow (maxArg + 1) := by
  unfold cmdParse at h
  simp only [Option.bind_eq_bind, Option.bind_eq_some_iff, Prod.exists, Option.pure_def,
    Option.some.injEq, Prod.mk.injEq] at h
  obtain ⟨cmd₁, log₁, hlist, rfl, -, rfl⟩ := h
  exact cmdParseList_inv (by simp) hlist

end Invariant

/-! ## Past `MAXARG` -/

/-- The parser stores one slot past both arrays of an `EXEC` node, and no further. On every
line, each store is within `argv[MAXARG + 2]` and `eargv[MAXARG + 1]`, and every `EXEC` node has
from 1 to `MAXARG + 1` words: `cmd_parse_exec` checks a word against `MAXARG` only after storing
it, and its loop goes on to one more word. A line of 33 words fits in `buf` and parses to an
`EXEC` node with `argc = 33`. The parser stored into `eargv[32]` once and into `argv[33]`
twice: once the pointer to the end of the line, once the `NULL`. -/
theorem sh_parse_overflows_args :
    (∀ line cmd line' log, cmdParse line = some (cmd, line', log) →
      cmd.ArgcIn (maxArg + 1) ∧ ∀ ev ∈ log, ev.StoreBelow (maxArg + 1)) ∧
    ((List.replicate 33 'a').intersperse ' ' ++ ['\n']).length ≤ maxBuf - 1 ∧
    (cmdParse ((List.replicate 33 'a').intersperse ' ' ++ ['\n'])).map
        (fun r => (r.1, r.2.2.count (.storeEargv maxArg),
          r.2.2.count (.storeArgv (maxArg + 1)))) =
      some (.exec (List.range' 0 33 2) (List.range' 1 33 2) 33, 1, 2) :=
  ⟨fun _ _ _ _ h => cmdParse_inv h, by decide, by decide +kernel⟩

end Argentum.User
