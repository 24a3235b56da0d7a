-- The editor of files in the sandbox: it views, creates and edits them, and undoes its last edit
-- of a path. What it reads has its newlines normalized, and before an edit its tabs expanded.
import UniAgent.PythonLines
import UniAgent.GatewayRoutes

namespace uni_agent.tools

/-! ## The sandbox -/

/-- The bytes of a file: a text in UTF-8, or bytes that are none. -/
inductive FileContent where
  | utf8 (text : Text)
  | binary (bytes : List UInt8)
  deriving DecidableEq

inductive Node where
  | directory
  | file (content : FileContent)
  deriving DecidableEq

/-- The files, and what `find` prints of a directory, or the text of its failure. -/
structure Sandbox where
  files : String → Option Node
  find : String → Except String String

/-- What is raised by the calls of the sandbox during one command. A write that raises may have
begun: then it left some bytes in the file. -/
structure Faults where
  exec : Option PyError := none
  readFile : Option PyError := none
  writeFile : Option (PyError × Option FileContent) := none

namespace Sandbox

/-- `test -e` -/
def exists? (s : Sandbox) (path : String) : Bool := (s.files path).isSome

/-- `test -d` -/
def isDir (s : Sandbox) (path : String) : Bool := s.files path == some .directory

def write (s : Sandbox) (path : String) (content : FileContent) : Sandbox :=
  { s with files := fun other => if other = path then some (.file content) else s.files other }

end Sandbox

/-! ## What is shown -/

def snippetLines : Nat := 4

def maxResponseLen : Nat := 16000

def truncatedMessage : Text :=
  ("<response clipped><NOTE>To save on context only part of this file has been shown to you. " ++
    "You should retry this tool after you have searched inside the file " ++
    "with `grep -n` in order to find the line numbers of what you are looking for.</NOTE>").toList

/-- `_maybe_truncate` -/
def maybeTruncate (content : Text) : Text :=
  if content.length ≤ maxResponseLen then content
  else content.take maxResponseLen ++ truncatedMessage

/-- The lines that `cat -n` would print, under their numbers, and whether some are clipped. -/
structure Output where
  fileDescriptor : String
  numbered : List (Nat × Text)
  clipped : Bool

/-- `_make_output` -/
def makeOutput (fileContent : Text) (fileDescriptor : String) (initLine : Nat) : Output where
  fileDescriptor := fileDescriptor
  numbered := (maybeTruncate fileContent).expandtabs.lines.zipIdx.map
    (fun line => (line.2 + initLine, line.1))
  clipped := maxResponseLen < fileContent.length

/-- `f"{number:6}"` -/
def padded (number : Nat) : String :=
  let digits := toString number
  String.ofList (List.replicate (6 - digits.length) ' ') ++ digits

def Output.text (o : Output) : String :=
  "Here's the result of running `cat -n` on " ++ o.fileDescriptor ++ ":\n" ++
    "\n".intercalate (o.numbered.map (fun line =>
      padded line.1 ++ "\t" ++ String.ofList line.2)) ++ "\n"

/-- What a command returns. -/
inductive Reply where
  | viewed (output : Output)
  | listed (path stdout : String)
  | created (path : String)
  | edited (path : String) (output : Output) (advice : String)
  | undone (path : String) (output : Output)
  | refused (message : String)

def Reply.text : Reply → String
  | .viewed output => output.text
  | .listed path stdout => "Here's the files and directories up to 2 levels deep in `" ++ path ++
    "`, excluding hidden items:\n" ++ stdout ++ "\n"
  | .created path => "File created successfully at: " ++ path
  | .edited path output advice =>
    "The file " ++ path ++ " has been edited. " ++ output.text ++ advice
  | .undone path output => "Last edit to " ++ path ++ " undone successfully. " ++ output.text
  | .refused message => message

/-! ## The tool -/

/-- The arguments of a call, after their validation. -/
structure Arguments where
  command : String
  path : String
  fileText : Option Text := none
  oldStr : Option Text := none
  newStr : Option Text := none
  insertLine : Option Int := none
  viewRange : Option (List Int) := none

structure EditFileTool where
  sandbox : Sandbox
  /-- The previous contents of each path, the newest first. -/
  history : String → List Text

namespace EditFileTool

def toolError (message : String) : PyError := .otherException "ToolError" message

/-- `_read` -/
def read (t : EditFileTool) (faults : Faults) (path : String) : Except PyError Text :=
  match faults.readFile, t.sandbox.files path with
  | some e, _ => .error e
  | none, some (.file (.utf8 text)) => .ok text.normalizeNewlines
  | none, some (.file (.binary _)) =>
    .error (toolError ("The file `" ++ path ++ "` is not valid UTF-8 text."))
  | none, _ => .error (.runtimeError ("read_file '" ++ path ++ "' failed"))

/-- `await sandbox.write_file(path, text)`, and then a change of the history of the path. -/
def writeFile (t : EditFileTool) (faults : Faults) (path : String) (text : Text)
    (history : List Text) (reply : Reply) : Except PyError Reply × EditFileTool :=
  match faults.writeFile with
  | some (e, none) => (.error e, t)
  | some (e, some left) => (.error e, { t with sandbox := t.sandbox.write path left })
  | none => (.ok reply, {
      sandbox := t.sandbox.write path (.utf8 text)
      history := fun other => if other = path then history else t.history other })

def refuse (t : EditFileTool) (message : String) : Except PyError Reply × EditFileTool :=
  (.ok (.refused message), t)

def intList (values : List Int) : String :=
  "[" ++ ", ".intercalate (values.map toString) ++ "]"

/-- The `view_range` of a view, when it is one: its first line, and the lines in it. -/
def rangeOf (fileLines : List Text) (viewRange : List Int) : Except String (Nat × List Text) :=
  match viewRange with
  | [initLine, finalLine] =>
    let nLines : Int := fileLines.length
    if initLine < 1 ∨ nLines < initLine then
      .error ("Invalid `view_range`: " ++ intList viewRange ++ ". Its first element `" ++
        toString initLine ++ "` should be within the range of lines of the file: " ++
        intList [1, nLines])
    else if nLines < finalLine then
      .error ("Invalid `view_range`: " ++ intList viewRange ++ ". Its second element `" ++
        toString finalLine ++ "` should be smaller than the number of lines in the file: `" ++
        toString nLines ++ "`")
    else if finalLine ≠ -1 ∧ finalLine < initLine then
      .error ("Invalid `view_range`: " ++ intList viewRange ++ ". Its second element `" ++
        toString finalLine ++ "` should be larger or equal than its first `" ++
        toString initLine ++ "`")
    else
      let finalLine := if finalLine = -1 then nLines else finalLine
      .ok (initLine.toNat,
        (fileLines.take finalLine.toNat).drop (initLine - 1).toNat)
  | _ => .error "Invalid `view_range`. It should be a list of two integers."

/-- `_view` -/
def view (t : EditFileTool) (faults : Faults) (path : String) (viewRange : Option (List Int)) :
    Except PyError Reply × EditFileTool :=
  let viewRange := viewRange.getD []
  if t.sandbox.isDir path then
    if viewRange ≠ [] then
      t.refuse "The `view_range` parameter is not allowed when `path` points to a directory."
    else
      match t.sandbox.find path with
      | .error stderr => t.refuse ("Failed to list directory `" ++ path ++ "`: " ++ pyStrip stderr)
      | .ok stdout => (.ok (.listed path stdout), t)
  else
    match t.read faults path with
    | .error e => (.error e, t)
    | .ok fileContent =>
      if viewRange = [] then (.ok (.viewed (makeOutput fileContent path 1)), t)
      else
        match rangeOf fileContent.lines viewRange with
        | .error message => t.refuse message
        | .ok (initLine, shown) =>
          (.ok (.viewed (makeOutput (Text.joinLines shown) path initLine)), t)

/-- `os.path.dirname(path.rstrip("/")) or "/"` -/
def parentOf (path : String) : String :=
  let stripped := (path.toList.reverse.dropWhile (· == '/')).reverse
  let head := (stripped.reverse.dropWhile (· != '/')).reverse
  let parent := if head.all (· == '/') then head else (head.reverse.dropWhile (· == '/')).reverse
  if parent.isEmpty then "/" else String.ofList parent

/-- `_create` -/
def create (t : EditFileTool) (faults : Faults) (path : String) (fileText : Option Text) :
    Except PyError Reply × EditFileTool :=
  match fileText with
  | none => t.refuse "Parameter `file_text` is required for command: create"
  | some fileText =>
    if !t.sandbox.isDir (parentOf path) then
      t.refuse ("The parent directory " ++ parentOf path ++
        " does not exist. Please create it first.")
    else t.writeFile faults path fileText ([] :: t.history path) (.created path)

/-- The snippet around a replacement: its first line, and its text. -/
def replacementSnippet (fileContent oldStr newStr newFileContent : Text) : Nat × Text :=
  let replacementLine := List.count '\n' (Text.splitFirst oldStr fileContent)
  let startLine := max 1 (replacementLine - snippetLines)
  let endLine := min (replacementLine + snippetLines + List.count '\n' newStr)
    newFileContent.splitlines.length
  (startLine, Text.joinLines ((newFileContent.lines.take endLine).drop (startLine - 1)))

/-- `_str_replace` -/
def strReplace (t : EditFileTool) (faults : Faults) (path : String)
    (oldStr newStr : Option Text) : Except PyError Reply × EditFileTool :=
  if oldStr.getD [] = [] then
    t.refuse ("Parameter `old_str` is required for command: str_replace and must be a " ++
      "non-empty string.")
  else
    match t.read faults path with
    | .error e => (.error e, t)
    | .ok fileContent =>
      let fileContent := fileContent.expandtabs
      let oldStr := (oldStr.getD []).expandtabs
      let newStr := (newStr.map Text.expandtabs).getD []
      let occurrences := Text.count oldStr fileContent
      if occurrences = 0 then
        t.refuse ("No replacement was performed, old_str `" ++ String.ofList oldStr ++
          "` did not appear verbatim in " ++ path ++ ".")
      else if 1 < occurrences then
        t.refuse ("No replacement was performed. Multiple occurrences of old_str `" ++
          String.ofList oldStr ++ "` in lines " ++ intList ((fileContent.lines.zipIdx.filter
            (fun line => Text.contains oldStr line.1)).map (fun line => (line.2 + 1 : Int))) ++
          ". Please ensure it is unique")
      else if newStr = oldStr then
        t.refuse ("No replacement was performed, old_str `" ++ String.ofList oldStr ++
          "` is the same as new_str `" ++ String.ofList newStr ++ "`.")
      else
        let newFileContent := Text.replace oldStr newStr fileContent
        let snippet := replacementSnippet fileContent oldStr newStr newFileContent
        t.writeFile faults path newFileContent (fileContent :: t.history path)
          (.edited path (makeOutput snippet.2 ("a snippet of " ++ path) snippet.1)
            ("Review the changes and make sure they are as expected. " ++
              "Edit the file again if necessary."))

/-- `_insert` -/
def insert (t : EditFileTool) (faults : Faults) (path : String) (insertLine : Option Int)
    (newStr : Option Text) : Except PyError Reply × EditFileTool :=
  match insertLine, newStr with
  | none, _ => t.refuse "Parameter `insert_line` is required for command: insert"
  | some _, none => t.refuse "Parameter `new_str` is required for command: insert"
  | some insertLine, some newStr =>
    match t.read faults path with
    | .error e => (.error e, t)
    | .ok fileText =>
      let fileText := fileText.expandtabs
      let fileLines := fileText.lines
      if insertLine < 0 ∨ fileLines.length < insertLine then
        t.refuse ("Invalid `insert_line` parameter: " ++ toString insertLine ++
          ". It should be within the range of lines of the file: " ++
          intList [0, fileLines.length])
      else
        let line := insertLine.toNat
        let newStrLines := newStr.expandtabs.lines
        let newFileLines := fileLines.take line ++ newStrLines ++ fileLines.drop line
        let snippet := (fileLines.take line).drop (line - snippetLines) ++ newStrLines ++
          (fileLines.take (line + snippetLines)).drop line
        t.writeFile faults path (Text.joinLines newFileLines) (fileText :: t.history path)
          (.edited path (makeOutput (Text.joinLines snippet) "a snippet of the edited file"
            (max 1 (line + 1 - snippetLines)))
            ("Review the changes and make sure they are as expected (correct indentation, no " ++
              "duplicate lines, etc). Edit the file again if necessary."))

/-- `_undo_edit` -/
def undoEdit (t : EditFileTool) (faults : Faults) (path : String) :
    Except PyError Reply × EditFileTool :=
  match t.history path with
  | [] => t.refuse ("No edit history found for " ++ path ++ ".")
  | oldText :: older =>
    t.writeFile faults path oldText older (.undone path (makeOutput oldText path 1))

/-- `_validate_path`: the text of a refusal. -/
def validatePath (t : EditFileTool) (faults : Faults) (command path : String) :
    Except PyError (Option String) :=
  if command = "create" ∧ path.toList.getLast? = some '/' then
    .ok (some ("The path `" ++ path ++
      "` ends with `/`. The `create` command requires a file path."))
  else
    match faults.exec with
    | some e => .error e
    | none =>
      if !t.sandbox.exists? path ∧ command ≠ "create" then
        .ok (some ("The path `" ++ path ++ "` does not exist. Please provide a valid path."))
      else if t.sandbox.exists? path ∧ command = "create" then
        .ok (some ("File already exists at: `" ++ path ++
          "`. Cannot overwrite files using command `create`."))
      else if t.sandbox.isDir path ∧ command ≠ "view" then
        .ok (some ("The path `" ++ path ++
          "` is a directory and only the `view` command can be used on directories"))
      else .ok none

/-- `_apply` -/
def apply (t : EditFileTool) (faults : Faults) (args : Arguments) :
    Except PyError Reply × EditFileTool :=
  if args.command = "" then (.error (toolError "Parameter `command` is required."), t)
  else if args.path = "" then (.error (toolError "Parameter `path` is required."), t)
  else
    match t.validatePath faults args.command args.path with
    | .error e => (.error e, t)
    | .ok (some message) => t.refuse message
    | .ok none =>
      if args.command = "view" then t.view faults args.path args.viewRange
      else if args.command = "create" then t.create faults args.path args.fileText
      else if args.command = "str_replace" then
        t.strReplace faults args.path args.oldStr args.newStr
      else if args.command = "insert" then
        t.insert faults args.path args.insertLine args.newStr
      else if args.command = "undo_edit" then t.undoEdit faults args.path
      else t.refuse ("Unrecognized command `" ++ args.command ++
        "`. The allowed commands for the str_replace_editor are: " ++
        "`view`, `create`, `str_replace`, `insert`, `undo_edit`")

end EditFileTool

end uni_agent.tools
