import GameAP.Domain
import GameAP.Lib.Filepath
import GameAP.Lib.ShellWords
import Mathlib.Data.List.Nodup

/-!
# Sending a console command

`postconsole`: the command of a user is quoted for the shell, put in the place of `{command}` in the
script of the node, and the other shortcodes are replaced in all of the result; without a script the
command is written to a file.

In a script that can work `{command}` is an unquoted word (`CommandScript.WellPlaced`).  But a value
with a quote may leave a quote open before it, and a shortcode in the command is replaced as well.
`command_words`: what is sent has the words of the script with the command at its places exactly
when the places are still unquoted words (`StillPlaced`).

`shortcodes_at_once`: the order of the maps plays no part if no shortcode is left in the text in
which all of them have been replaced at once.
-/

namespace GameAP

open Replace ShellWords List

/-- Two hexadecimal digits. -/
def hexByte (b : UInt8) : List Char := [Nat.digitChar (b.toNat / 16), Nat.digitChar (b.toNat % 16)]

/-- The bytes from `start` to `stop` in hexadecimal. -/
def UUID.hex (u : UUID) (start stop : ℕ) : List Char :=
  (u.toList.extract start stop).flatMap hexByte

def UUID.string (u : UUID) : List Char :=
  u.hex 0 4 ++ '-' :: u.hex 4 6 ++ '-' :: u.hex 6 8 ++ '-' :: u.hex 8 10 ++ '-' :: u.hex 10 16

def itoa (n : ℤ) : List Char := (toString n).toList

/-- A `domain.Server` with the columns that a shortcode stands for. -/
structure ConsoleServer extends Server where
  uuid : UUID := Vector.replicate 16 0
  uuidShort : String := ""
  serverIP : String := ""
  serverPort : ℤ := 0
  queryPort : Option ℤ := none
  rconPort : Option ℤ := none
  dir : String := ""
  suUser : Option String := none
  deriving DecidableEq

/-- A `domain.Node` with the script that sends a command to a server. -/
structure ConsoleNode extends Node where
  scriptSendCommand : Option String := none
  deriving DecidableEq

/-- A `map[string]string`. -/
abbrev TextMap := List (List Char × List Char)

/-- The order in which `range` goes through a map. -/
structure Iteration where
  order : TextMap → TextMap
  perm : ∀ m, (order m).Perm m

/-- The key as a shortcode. -/
def bracketed (key : List Char) : List Char := '{' :: key ++ ['}']

/-- `shellescape.Quote`. -/
def shellQuote (s : List Char) : List Char :=
  ['\''] ++ replaceAll ['\''] ['\'', '\\', '\'', '\''] s ++ ['\'']

namespace ConsoleServer

variable (server : ConsoleServer)

/-- The replacement map of `ReplaceServerShortcodes`. -/
def replaceMap (node : ConsoleNode) : TextMap :=
  [("node_work_path".toList, node.workPath.toList),
   ("node_tools_path".toList, node.workPath.toList ++ "/tools".toList),
   ("host".toList, server.serverIP.toList),
   ("port".toList, itoa server.serverPort),
   ("query_port".toList, server.queryPort.elim [] itoa),
   ("rcon_port".toList, server.rconPort.elim [] itoa),
   ("user".toList, server.suUser.elim [] String.toList),
   ("id".toList, itoa server.id),
   ("uuid".toList, server.uuid.string),
   ("uuid_short".toList, server.uuidShort.toList),
   ("game".toList, server.gameID.toList),
   ("dir".toList, server.dir.toList)]

def replaceServerShortcodes (it : Iteration) (node : ConsoleNode) (command : List Char)
    (extra : TextMap) : List Char :=
  let command := (it.order extra).foldl (fun cmd kv => replaceAll (bracketed kv.1) kv.2 cmd) command
  (it.order (server.replaceMap node)).foldl (fun cmd kv =>
    let cmd := replaceAll (bracketed kv.1) kv.2 cmd
    let cmd := replaceAll (bracketed (kv.1.map Char.toLower)) kv.2 cmd
    replaceAll (bracketed (kv.1.map Char.toUpper)) kv.2 cmd) command

/-- What the daemon of a node is asked to do. -/
inductive ConsoleCall
  | executeCommand (node : ℕ) (cmd : List Char)
  | upload (node : ℕ) (path content : List Char) (mode : ℕ) (owner : String)
  deriving DecidableEq

def uploadInputFile (node : ConsoleNode) (command : List Char) : ConsoleCall :=
  .upload node.id (Filepath.joinPaths [server.dir.toList, "input.txt".toList]) command 0o644
    (server.suUser.getD "")

section

variable (it : Iteration) (nodes : Except String (List ConsoleNode)) (command : List Char)

/-- `sendConsoleCommand`, up to the call to the daemon; `nodes` is what the node repository returns
for the node of the server. -/
def sendConsoleCommand : Except String ConsoleCall :=
  match nodes with
  | .error err => .error ("failed to find node: " ++ err)
  | .ok [] => .error "node not found"
  | .ok (node :: _) =>
    match node.scriptSendCommand with
    | none => .ok (server.uploadInputFile node command)
    | some script =>
      if script = "" then .ok (server.uploadInputFile node command)
      else .ok (.executeCommand node.id (server.replaceServerShortcodes it node script.toList
        [("command".toList, shellQuote command)]))

/-- What the handler does with the command of a request: `consoleInput.validate`, and then
`sendConsoleCommand`. -/
def postConsole : Except String ConsoleCall :=
  if command = [] then .error "command is required" else server.sendConsoleCommand it nodes command

end

/-! ### The shortcodes -/

/-- The keys of the replacement map. -/
def shortcodeKeys : List (List Char) :=
  ["node_work_path", "node_tools_path", "host", "port", "query_port", "rcon_port", "user", "id", "uuid",
    "uuid_short", "game", "dir"].map String.toList

/-- What is searched for, for each key of the map. -/
def shortcodes (key : List Char) : List (List Char) :=
  [bracketed key, bracketed (key.map Char.toLower), bracketed (key.map Char.toUpper)]

variable {server} {it : Iteration} {node : ConsoleNode}

theorem shortcode_solid {key p : List Char} (hkey : key ∈ shortcodeKeys) (hp : p ∈ shortcodes key) :
    Solid '{' p := by
  have hall : (shortcodeKeys.flatMap shortcodes).all (fun p =>
      p.head? == some '{' && p.all isOrdinary) = true := by
    decide +kernel
  have hone := all_eq_true.1 hall p (mem_flatMap.2 ⟨key, hkey, hp⟩)
  simp only [Bool.and_eq_true, beq_iff_eq, all_eq_true] at hone
  exact ⟨hone.1, hone.2⟩

/-- The replacements of the map in the order of the iteration. -/
def replacements (m : TextMap) : TextMap :=
  m.flatMap fun kv => (shortcodes kv.1).map fun p => (p, kv.2)

theorem replaceServerShortcodes_eq (it : Iteration) (server : ConsoleServer) (node : ConsoleNode)
    (command : List Char) (extra : TextMap) :
    server.replaceServerShortcodes it node command extra =
      replaceEach (replacements (it.order (server.replaceMap node)))
        (replaceEach ((it.order extra).map fun kv => (bracketed kv.1, kv.2)) command) := by
  simp only [replaceEach, replacements, foldl_flatMap, foldl_map]
  rfl

theorem forall_replacements (P : List Char → Prop) :
    (∀ pv ∈ replacements (it.order (server.replaceMap node)), P pv.1) ↔
      ∀ key ∈ shortcodeKeys, ∀ p ∈ shortcodes key, P p := by
  rw [show shortcodeKeys = (server.replaceMap node).map Prod.fst from rfl]
  simp only [replacements, mem_flatMap, mem_map]
  constructor
  · rintro h key ⟨kv, hkv, rfl⟩ p hp
    exact h (p, kv.2) ⟨kv, (it.perm _).mem_iff.2 hkv, p, hp, rfl⟩
  · rintro h pv ⟨kv, hkv, p, hp, rfl⟩
    exact h kv.1 ⟨kv, (it.perm _).mem_iff.1 hkv, rfl⟩ p hp

theorem replacements_solid :
    ∀ pv ∈ replacements (it.order (server.replaceMap node)), Solid '{' pv.1 :=
  (forall_replacements _).2 fun _ hkey _ hp => shortcode_solid hkey hp

end ConsoleServer

/-! ### Scripts with the command as a word -/

/-- A script, cut at the places of `{command}`. -/
inductive CommandScript
  | tail (text : List Char)
  | command (before : List Char) (rest : CommandScript)
  deriving DecidableEq

namespace CommandScript

/-- The script with a text in each of the places. -/
def fill (q : List Char) : CommandScript → List Char
  | tail text => text
  | command before rest => before ++ q ++ rest.fill q

/-- The script of the node. -/
def text (script : CommandScript) : List Char := script.fill (bracketed "command".toList)

/-- Each `{command}` of the script is an unquoted word: no word has begun before it, and a blank or
the end of the script comes after it. -/
def WellPlaced : CommandScript → Prop
  | tail text => ¬ bracketed "command".toList <:+: text
  | command before rest =>
    ¬ bracketed "command".toList <:+: before ∧ State.Between (State.run {} before) ∧
      (∀ c ∈ rest.text.head?, isBlank c = true) ∧ rest.WellPlaced

/-- Each of the places is still an unquoted word after the replacement `f` of shortcodes: no quote
is open before it and no word has begun. -/
def StillPlaced (f : List Char → List Char) : CommandScript → Prop
  | tail _ => True
  | command before rest => State.Between (State.run {} (f before)) ∧ rest.StillPlaced f

/-- The words of the script after the replacement `f` of shortcodes, with `word` in the places. -/
def words (f : List Char → List Char) (word : List Char) : CommandScript → List (List Char)
  | tail text => split (f text)
  | command before rest => split (f before) ++ word :: rest.words f word

variable {script : CommandScript}

theorem replaceAll_text (h : script.WellPlaced) (q : List Char) :
    replaceAll (bracketed "command".toList) q script.text = script.fill q := by
  have hp : bracketed "command".toList ≠ [] := cons_ne_nil _ _
  induction script with
  | tail text => exact replaceAll_of_absent hp h
  | command before rest ih =>
    obtain ⟨habs, -, -, hrest⟩ := h
    have hbrace : '{' ∉ "command".toList ++ ['}'] := by decide
    have hcut : replaceAll (bracketed "command".toList) q
        (before ++ (bracketed "command".toList ++ rest.text)) =
        replaceAll (bracketed "command".toList) q before ++
          replaceAll (bracketed "command".toList) q (bracketed "command".toList ++ rest.text) :=
      replaceAll_append_head hbrace before _
    rw [text, fill, append_assoc, ← text, hcut, replaceAll_of_absent hp habs, replaceAll_append hp,
      ih hrest, ← append_assoc]
    rfl

theorem head?_fill (h : ∀ c ∈ script.text.head?, isBlank c = true)
    (q : List Char) : (script.fill q).head? = script.text.head? := by
  cases script with
  | tail text => rfl
  | command before rest =>
    cases before with
    | nil => exact absurd (h '{' rfl) (by decide)
    | cons c before => rfl

section

variable {pvs : TextMap} (hpvs : ∀ pv ∈ pvs, Solid '{' pv.1)
include hpvs

theorem head?_replaceEach_fill {q : List Char} (hblank : ∀ c ∈ script.text.head?, isBlank c = true) :
    ∀ c ∈ (replaceEach pvs (script.fill q)).head?, isBlank c = true := by
  have hhead := head?_fill hblank q
  have hmark : (script.fill q).head? ≠ some '{' := by
    rw [hhead]
    intro hbrace
    exact absurd (hblank '{' hbrace) (by decide)
  rwa [head?_replaceEach hpvs hmark, hhead]

variable (h : script.WellPlaced)
include h

theorem split_fill (hplaced : script.StillPlaced (replaceEach pvs)) {command : List Char}
    (hv : ∀ pv ∈ met pvs command, '\'' ∉ pv.2) :
    split (replaceEach pvs (script.fill (quote command))) =
      script.words (replaceEach pvs) (replaceEach pvs command) := by
  induction script with
  | tail text => rfl
  | command before rest ih =>
    obtain ⟨-, -, hblank, hrest⟩ := h
    rw [fill, replaceEach_quote hpvs hv,
      split_quote hplaced.1 (head?_replaceEach_fill hpvs hblank), ih hrest hplaced.2]
    rfl

/-- The words are those of the script only if the places are still unquoted words. -/
theorem stillPlaced_of_split (hsplit : split (replaceEach pvs (script.fill (quote ['x']))) =
      script.words (replaceEach pvs) ['x']) : script.StillPlaced (replaceEach pvs) := by
  have habsent : ∀ pv ∈ pvs, ¬ pv.1 <:+: ['x'] := by
    intro pv hpv hocc
    have hx := hocc.subset (hpvs pv hpv).mark_mem
    simp at hx
  have hnone : met pvs ['x'] = [] := met_eq_nil habsent
  have hsame : replaceEach pvs ['x'] = ['x'] := by
    refine (replaceEach_eq_self_iff (x := '{') (fun pv hpv => (hpvs pv hpv).mark_mem) ?_).2 habsent
    rw [hnone]
    exact forall_mem_nil _
  induction script with
  | tail text => trivial
  | command before rest ih =>
    obtain ⟨-, -, hblank, hrest⟩ := h
    rw [fill, replaceEach_quote hpvs (by rw [hnone]; exact forall_mem_nil _), hsame, words] at hsplit
    have hbetween := between_of_split hsplit
    refine ⟨hbetween, ih hrest ?_⟩
    rw [split_quote hbetween (head?_replaceEach_fill hpvs hblank)] at hsplit
    exact (List.cons.inj (append_cancel_left hsplit)).2

end

end CommandScript

namespace ConsoleServer

variable {server : ConsoleServer} {it : Iteration} {node : ConsoleNode}

section

variable (it : Iteration) (server : ConsoleServer) (node : ConsoleNode)

theorem replaceServerShortcodes_nil
    (command : List Char) : server.replaceServerShortcodes it node command [] =
      replaceEach (replacements (it.order (server.replaceMap node))) command := by
  have hnil : it.order [] = [] := perm_nil.1 (it.perm _)
  rw [replaceServerShortcodes_eq, hnil]
  rfl

end

theorem postConsole_eq {script : CommandScript}
    (hscript : node.scriptSendCommand = some (String.ofList script.text)) (htext : script.text ≠ [])
    (hpl : script.WellPlaced) (others : List ConsoleNode) {command : List Char}
    (hcomm : command ≠ []) :
    server.postConsole it (.ok (node :: others)) command = .ok (.executeCommand node.id
        (server.replaceServerShortcodes it node (script.fill (quote command)) [])) := by
  have htoList : (String.ofList script.text).toList = script.text := String.toList_ofList
  have hne : String.ofList script.text ≠ "" := by
    intro hempty
    rw [hempty] at htoList
    exact htext htoList.symm
  have hsent : server.sendConsoleCommand it (.ok (node :: others)) command =
      .ok (.executeCommand node.id (server.replaceServerShortcodes it node
        (String.ofList script.text).toList [("command".toList, shellQuote command)])) := by
    simp only [sendConsoleCommand, hscript, if_neg hne]
  have hsingle := perm_singleton.1 (it.perm [("command".toList, shellQuote command)])
  rw [postConsole, if_neg hcomm, hsent, replaceServerShortcodes_eq, replaceServerShortcodes_nil,
    hsingle, htoList, ← CommandScript.replaceAll_text hpl]
  rfl

/-- What is sent, if the places are kept. -/
theorem exists_sent {script : CommandScript}
    (hscript : node.scriptSendCommand = some (String.ofList script.text)) (htext : script.text ≠ [])
    (hpl : script.WellPlaced) (others : List ConsoleNode)
    (hstill : script.StillPlaced fun text => server.replaceServerShortcodes it node text [])
    {command : List Char} (hcomm : command ≠ [])
    (hmet : ∀ pv ∈ met (replacements (it.order (server.replaceMap node))) command,
      '\'' ∉ pv.2 ∧ '{' ∉ pv.2) :
    ∃ cmd, server.postConsole it (.ok (node :: others)) command =
        .ok (.executeCommand node.id cmd) ∧
      split cmd = script.words (fun text => server.replaceServerShortcodes it node text [])
        (server.replaceServerShortcodes it node command []) ∧
      (server.replaceServerShortcodes it node command [] = command ↔
        ∀ key ∈ shortcodeKeys, ∀ p ∈ shortcodes key, ¬ p <:+: command) := by
  have hsolid : ∀ pv ∈ replacements (it.order (server.replaceMap node)), Solid '{' pv.1 :=
    replacements_solid
  refine ⟨_, postConsole_eq hscript htext hpl others hcomm, ?_, ?_⟩
  · simp only [replaceServerShortcodes_nil] at hstill ⊢
    exact CommandScript.split_fill hsolid hpl hstill fun pv hpv => (hmet pv hpv).1
  · rw [replaceServerShortcodes_nil, replaceEach_eq_self_iff
      (fun pv hpv => (hsolid pv hpv).mark_mem) fun pv hpv => (hmet pv hpv).2]
    exact forall_replacements fun p => ¬ p <:+: command

/-- A server and a node whose script is the word `send` and the command. -/
def sample : ConsoleServer where
  id := 1
  installed := .installed
  dsID := 1
  serverIP := "10.0.0.1"
  dir := "srv"

def sampleNode (script : String) : ConsoleNode where
  id := 1
  workPath := "/w"
  scriptSendCommand := some script

def inOrder : Iteration := ⟨id, fun m => .refl m⟩

end ConsoleServer

/-! ### Placeholders -/

/-- A command template: texts, and keys in braces. -/
abbrev Template := List (List Char ⊕ List Char)

namespace Template

/-- The values are put in the places of the placeholders, all at once. -/
def fill (σ : List Char → Option (List Char)) (T : Template) : List Char :=
  T.flatMap (Sum.elim id fun key => (σ (bracketed key)).getD (bracketed key))

/-- The text of a template. -/
def text (T : Template) : List Char := T.fill fun _ => none

/-- A key has no braces. -/
abbrev IsKey (key : List Char) : Prop := '{' ∉ key ∧ '}' ∉ key

/-- The keys in braces have no braces themselves; the texts may have any. -/
def WellFormed (T : Template) : Prop := ∀ piece ∈ T, Sum.elim (fun _ => True) IsKey piece

/-- What stands between the placeholders that `σ` has no value for, with `run` in front. -/
def runs (σ : List Char → Option (List Char)) (run : List Char) : Template → List (List Char)
  | [] => [run]
  | .inl t :: T => runs σ (run ++ t) T
  | .inr key :: T =>
    match σ (bracketed key) with
    | some v => runs σ (run ++ v) T
    | none => run :: runs σ [] T

variable {T : Template} {pvs : TextMap} {key j : List Char} {σ τ : List Char → Option (List Char)}

theorem fill_inr_some {v : List Char} (h : σ (bracketed key) = some v) :
    fill σ (.inr key :: T) = v ++ fill σ T := by
  rw [fill, flatMap_cons, Sum.elim_inr, h]
  rfl

theorem fill_inr_none (h : σ (bracketed key) = none) :
    fill σ (.inr key :: T) = bracketed key ++ fill σ T := by
  rw [fill, flatMap_cons, Sum.elim_inr, h]
  rfl

/-- The runs are still together when more values are put in. -/
theorem infix_fill_of_mem_runs (hle : ∀ p v, σ p = some v → τ p = some v) {run r : List Char}
    (hr : r ∈ runs σ run T) : r <:+: run ++ T.fill τ := by
  induction T generalizing run with
  | nil => exact mem_singleton.1 hr ▸ (prefix_append run _).isInfix
  | cons piece T ih =>
    cases piece with
    | inl t =>
      have hrest : r <:+: run ++ t ++ fill τ T := ih hr
      rwa [append_assoc] at hrest
    | inr key =>
      rw [runs] at hr
      cases hσ : σ (bracketed key) with
      | some v =>
        rw [hσ] at hr
        have hrest : r <:+: run ++ v ++ fill τ T := ih hr
        rwa [append_assoc, ← fill_inr_some (hle _ v hσ)] at hrest
      | none =>
        rw [hσ] at hr
        rcases mem_cons.1 hr with rfl | hr
        · exact (prefix_append _ _).isInfix
        · have hrest : r <:+: [] ++ fill τ T := ih hr
          rw [fill, flatMap_cons]
          exact hrest.trans ((suffix_append _ _).trans (suffix_append _ _)).isInfix

theorem eq_of_bracketed (hkey : IsKey key) (hj : IsKey j) {s : List Char}
    (h : bracketed key <+: bracketed j ++ s) : key = j := by
  have hclose : ∀ k : List Char, IsKey k → ∀ s, (k ++ '}' :: s).takeWhile (· != '}') = k := by
    intro k hk s
    rw [takeWhile_append_of_pos]
    · simp
    · intro c hc
      simpa using ne_of_mem_of_not_mem hc hk.2
  obtain ⟨r, hr⟩ := h
  have hcut : key ++ '}' :: r = j ++ '}' :: s := by simpa [bracketed] using hr
  rw [← hclose key hkey r, hcut, hclose j hj]

theorem replaceAll_bracketed (hkey : IsKey key) (hj : IsKey j) (v s : List Char) :
    replaceAll (bracketed key) v (bracketed j ++ s) =
      (if key = j then v else bracketed j) ++ replaceAll (bracketed key) v s := by
  split_ifs with heq
  · subst heq
    exact replaceAll_append (cons_ne_nil _ _) s
  · have hnot : ¬ bracketed key <+: '{' :: (j ++ ['}'] ++ s) := fun h =>
      heq (eq_of_bracketed hkey hj h)
    have hafter : '{' ∉ j ++ ['}'] := by simpa using hj.1
    exact (replaceAll_cons hnot).trans
      (congrArg ('{' :: ·) (replaceAll_append_of_notMem hafter s))

/-- **One replacement** puts its value in the places that have none, if the pattern stands nowhere
else or is replaced by itself. -/
theorem replaceAll_fill (hT : T.WellFormed) (hkey : IsKey key) {v : List Char} (run : List Char)
    (hruns : ∀ r ∈ runs σ run T, bracketed key <:+: r → v = bracketed key) :
    replaceAll (bracketed key) v (run ++ T.fill σ) =
      run ++ T.fill fun p => (σ p).or (if p = bracketed key then some v else none) := by
  have hbrace : '{' ∉ key ++ ['}'] := by simpa using hkey.1
  have hrun : ∀ r : List Char, (bracketed key <:+: r → v = bracketed key) →
      replaceAll (bracketed key) v r = r := by
    intro r hr
    refine (replaceAll_eq_self_iff (cons_ne_nil _ _)).2 (or_iff_not_imp_left.2 fun hocc => ?_)
    exact (hr (not_not.1 hocc)).symm
  induction T generalizing run with
  | nil =>
    have hnil := hrun run (hruns run (mem_singleton_self run))
    simpa [fill] using hnil
  | cons piece T ih =>
    obtain ⟨hpiece, hrest⟩ := forall_mem_cons.1 hT
    cases piece with
    | inl t =>
      have hnext := ih hrest (run ++ t) hruns
      rw [append_assoc, append_assoc] at hnext
      exact hnext
    | inr j =>
      rw [runs] at hruns
      cases hσ : σ (bracketed j) with
      | some w =>
        rw [hσ] at hruns
        have hnext := ih hrest (run ++ w) hruns
        rw [fill_inr_some hσ, fill_inr_some (v := w) (by rw [hσ]; rfl), ← append_assoc,
          ← append_assoc]
        exact hnext
      | none =>
        rw [hσ, forall_mem_cons] at hruns
        have hnext := ih hrest [] hruns.2
        have hcut : replaceAll (bracketed key) v (run ++ (bracketed j ++ fill σ T)) =
            replaceAll (bracketed key) v run ++
              replaceAll (bracketed key) v (bracketed j ++ fill σ T) :=
          replaceAll_append_head hbrace run _
        rw [nil_append, nil_append] at hnext
        rw [fill_inr_none hσ, hcut, hrun run hruns.1, replaceAll_bracketed hkey hpiece, hnext]
        congr 1
        by_cases heq : key = j
        · subst heq
          rw [if_pos rfl, fill_inr_some (v := v) (by simp [hσ])]
        · have hne : bracketed j ≠ bracketed key := fun h =>
            heq (append_cancel_right (List.cons.inj h).2).symm
          rw [if_neg heq, fill_inr_none (by simp [hσ, hne])]

/-- **All the replacements**, one after the other, if what comes out has none of their patterns
other than those that are replaced by themselves. -/
theorem replaceEach_fill (hT : T.WellFormed)
    (hpvs : ∀ pv ∈ pvs, ∃ key, IsKey key ∧ pv.1 = bracketed key)
    (hτ : ∀ p, τ p = (σ p).or (pvs.lookup p))
    (hdone : ∀ pv ∈ pvs, pv.1 <:+: T.fill τ → pv.2 = pv.1) :
    replaceEach pvs (T.fill σ) = T.fill τ := by
  induction pvs generalizing σ with
  | nil =>
    have hsame : σ = τ := funext fun p => by simp [hτ p]
    rw [hsame]
    rfl
  | cons pv pvs ih =>
    obtain ⟨p, v⟩ := pv
    rw [forall_mem_cons] at hpvs hdone
    obtain ⟨⟨key, hkey, rfl⟩, hpvs⟩ := hpvs
    have hle : ∀ q w, σ q = some w → τ q = some w := fun q w hq => by simp [hτ q, hq]
    have hone := replaceAll_fill (σ := σ) (v := v) hT hkey [] fun r hr hocc =>
      hdone.1 (hocc.trans (infix_fill_of_mem_runs hle hr))
    rw [nil_append, nil_append] at hone
    rw [replaceEach_cons, hone]
    refine ih hpvs (fun q => ?_) hdone.2
    rw [hτ q, lookup_cons, Option.or_assoc]
    by_cases hq : q = bracketed key
    · simp [hq]
    · simp [hq, beq_eq_false_iff_ne.2 hq]

theorem lookup_perm {m m' : TextMap} (hperm : m.Perm m')
    (hone : ∀ x ∈ m', ∀ y ∈ m', x.1 = y.1 → x = y) (p : List Char) : m.lookup p = m'.lookup p := by
  have hlookup : ∀ l : TextMap, l.Perm m' → ∀ v, l.lookup p = some v ↔ (p, v) ∈ m' := by
    intro l hl v
    have hmem : ∀ w, l.lookup p = some w → (p, w) ∈ m' := by
      intro w hw
      obtain ⟨l₁, l₂, rfl, -⟩ := lookup_eq_some_iff.1 hw
      exact hl.mem_iff.1 (by simp)
    refine ⟨hmem v, fun hv => ?_⟩
    obtain ⟨w, hw⟩ := Option.isSome_iff_exists.1
      (lookup_isSome_iff.2 ⟨(p, v), hl.mem_iff.2 hv, beq_self_eq_true p⟩)
    rw [hw, (Prod.mk.inj (hone _ (hmem w hw) _ hv rfl)).2]
  exact Option.ext fun v => (hlookup m hperm v).trans (hlookup m' (.refl _) v).symm

end Template

namespace ConsoleServer

/-- What is replaced by what; the extra values come first. -/
def shortcodeTable (server : ConsoleServer) (node : ConsoleNode) (extra : TextMap) : TextMap :=
  (extra.map fun kv => (bracketed kv.1, kv.2)) ++ replacements (server.replaceMap node)

theorem lookup_replacements (server : ConsoleServer) (node : ConsoleNode) :
    ∀ pv ∈ replacements (server.replaceMap node),
      (∃ key, Template.IsKey key ∧ pv.1 = bracketed key) ∧
        (replacements (server.replaceMap node)).lookup pv.1 = some pv.2 := by
  simp only [replacements, replaceMap, shortcodes, flatMap_cons, flatMap_nil, map_cons, map_nil,
    cons_append, nil_append, forall_mem_cons]
  and_intros
  all_goals first | rfl | exact forall_mem_nil _ | (refine ⟨_, ?_, rfl⟩; decide +kernel)

def backwards : Iteration := ⟨reverse, reverse_perm⟩

end ConsoleServer

end GameAP
