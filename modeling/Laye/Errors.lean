import Laye.Binding
import Laye.Chat

/-!
# The error pipe and the page

Errors wait in a buffer of `CAP` until `render_errors` takes them to the overlay, where an error
seen before is counted on its block. The page is everything a call can leave in the document;
nothing the network code decides depends on it.
-/

namespace Laye

inductive Severity
  | info
  | warn
  | error
  | panic
deriving DecidableEq

structure LayeError where
  id : String
  severity : Severity
  surface : String
  region : Option String
  title : String
  why : String
  trace : List String
  requiresReload : Bool
deriving DecidableEq

/-! ### The pipe -/

/-- `BUFFER` and `COUNTER`. -/
structure ErrPipe where
  buffer : List LayeError
  counter : Nat

namespace ErrPipe

def CAP : Nat := 100

def start : ErrPipe := ⟨[], 0⟩

def emit (pipe : ErrPipe) (err : LayeError) : ErrPipe :=
  { pipe with buffer := pipe.buffer.drop (if CAP ≤ pipe.buffer.length then 1 else 0) ++ [err] }

def drain (pipe : ErrPipe) : List LayeError × ErrPipe := (pipe.buffer, { pipe with buffer := [] })

def nextId (pipe : ErrPipe) : String × ErrPipe :=
  (s!"err-laye-{pipe.counter + 1}", { pipe with counter := pipe.counter + 1 })

def build (pipe : ErrPipe) (severity : Severity) (surface region title why : String) :
    LayeError × ErrPipe :=
  let (id, pipe) := pipe.nextId
  ({ id, severity, surface, region := some region, title, why, trace := [], requiresReload := false },
    pipe)

end ErrPipe

def SURFACE : String := "laye-p2p"

/-! ### The overlay -/

/-- The children of an error block, until `set_text_content` on the block replaces them. -/
inductive ErrorContent
  | rendered (count : String) (countVisible : Bool) (label title why : String)
      (trace : Option String) (reload : Bool)
  | text (s : String)
deriving DecidableEq

structure ErrorNode where
  id : String
  className : String
  content : ErrorContent
  displayed : Bool
deriving DecidableEq

def Severity.className : Severity → String
  | .info => "laye-sev-info"
  | .warn => "laye-sev-warn"
  | .error => "laye-sev-error"
  | .panic => "laye-sev-panic"

def Severity.label : Severity → String
  | .info => "info: "
  | .warn => "warn: "
  | .error => "error: "
  | .panic => "panic: "

def renderOneError (err : LayeError) : ErrorNode :=
  let region := err.region.getD "(no region)"
  { id := err.id
    className := "laye-error " ++ err.severity.className
    content := .rendered "×1" false err.severity.label err.title
      (err.why ++ " [" ++ err.surface ++ "/" ++ region ++ "]")
      (if err.trace.isEmpty then none else some (" ← ".intercalate err.trace)) err.requiresReload
    displayed := true }

def counterId (domId : String) : String := domId ++ "--count"

/-- The block holds a count element with this id. -/
def ErrorNode.hasCounter (node : ErrorNode) (domId : String) : Bool :=
  match node.content with
  | .rendered .. => counterId node.id == domId
  | .text _ => false

/-- The block is an element with this id; an empty id names no element. -/
def ErrorNode.hasId (node : ErrorNode) (domId : String) : Bool := domId != "" && node.id == domId

/-- Apply `onBlock` or `onCount` to the element `get_element_by_id` finds: the first block, or count
element of a block, with this id. Nothing else in the document has the id of an error. -/
def updateElementById (domId : String) (onBlock onCount : ErrorNode → ErrorNode) :
    List ErrorNode → List ErrorNode
  | [] => []
  | node :: nodes =>
    if node.hasId domId then onBlock node :: nodes
    else if node.hasCounter domId then onCount node :: nodes
    else node :: updateElementById domId onBlock onCount nodes

def ErrorNode.setCount (node : ErrorNode) (count : String) : ErrorNode :=
  match node.content with
  | .rendered _ _ label title why trace reload =>
    { node with content := .rendered count true label title why trace reload }
  | .text _ => node

/-- `errorListEl` holds the blocks of all lists mounted so far, in document order: a new list goes
behind the old one, which stays in the document. -/
structure ErrorOverlay where
  errorListEl : Option (List ErrorNode)
  errorDedup : HashMap String String
  errorCounts : HashMap String Nat

def ErrorOverlay.start : ErrorOverlay := ⟨none, HashMap.empty, HashMap.empty⟩

def bumpErrorCounter (overlay : ErrorOverlay) (domId : String) : ErrorOverlay :=
  let newCount := (overlay.errorCounts domId).getD 1 + 1
  let text := "×" ++ toString newCount
  let shown (nodes : List ErrorNode) :=
    updateElementById domId (fun node => { node with displayed := true }) id nodes
  let counted (nodes : List ErrorNode) :=
    -- the count element is only looked up once the block is found
    if nodes.any (fun node => node.hasId domId || node.hasCounter domId) then
      updateElementById (counterId domId) (fun node => { node with content := .text text })
        (fun node => node.setCount text) (shown nodes)
    else nodes
  { overlay with
    errorListEl := overlay.errorListEl.map counted
    errorCounts := overlay.errorCounts.insert domId newCount }

def dedupKey (err : LayeError) : String :=
  err.surface ++ "|" ++ err.region.getD "" ++ "|" ++ err.title

def renderError (overlay : ErrorOverlay) (err : LayeError) : ErrorOverlay :=
  match overlay.errorDedup (dedupKey err) with
  | some domId => bumpErrorCounter overlay domId
  | none =>
    { errorListEl := overlay.errorListEl.map (fun nodes => nodes ++ [renderOneError err])
      errorDedup := overlay.errorDedup.insert (dedupKey err) err.id
      errorCounts := overlay.errorCounts.insert err.id 1 }

def hideError (overlay : ErrorOverlay) (domId : String) : ErrorOverlay :=
  { overlay with
    errorListEl := overlay.errorListEl.map
      (updateElementById domId (fun node => { node with displayed := false }) id) }

/-! ### The page -/

/-- What `document()` finds. -/
inductive DomContext
  | document
  | noDocument
  | noWindow
deriving DecidableEq

structure ChatRow where
  className : String
  who : String
  body : String
deriving DecidableEq

structure LoginButton where
  text : String
  loggedIn : Bool
deriving DecidableEq

structure Page where
  dom : DomContext
  errors : ErrPipe
  overlay : ErrorOverlay
  messagesEl : Option (List ChatRow)
  loginButtonEl : Option LoginButton

namespace Page

def start (dom : DomContext) : Page := ⟨dom, ErrPipe.start, ErrorOverlay.start, none, none⟩

def build (page : Page) (severity : Severity) (region title why : String) : LayeError × Page :=
  let (err, errors) := page.errors.build severity SURFACE region title why
  (err, { page with errors })

def emit (page : Page) (err : LayeError) : Page := { page with errors := page.errors.emit err }

/-- `errpipe::emit(build(..))` -/
def report (page : Page) (severity : Severity) (region title why : String) : Page :=
  let (err, page) := page.build severity region title why
  page.emit err

/-- `document()`, which builds an error when there is none. -/
def document (page : Page) : Option LayeError × Page :=
  match page.dom with
  | .document => (none, page)
  | .noWindow =>
    let (err, page) := page.build .error "dom-window" "web_sys::window() returned None"
      "no window in this context"
    (some err, page)
  | .noDocument =>
    let (err, page) := page.build .error "dom-document" "window.document is None"
      "window returned but document did not"
    (some err, page)

def renderErrors (page : Page) : Page :=
  let (errors, pipe) := page.errors.drain
  let page := { page with errors := pipe }
  if errors.isEmpty then page
  else
    match page.document with
    | (some _, page) => page
    | (none, page) =>
      if page.overlay.errorListEl.isSome then
        { page with overlay := errors.foldl renderError page.overlay }
      else page

/-- `install_error_overlay` once nothing in it fails. -/
def installErrorOverlay (page : Page) : Page :=
  { page with overlay :=
      { page.overlay with errorListEl := some (page.overlay.errorListEl.getD []) } }

def installChatOverlay (page : Page) : Page :=
  { page with messagesEl := some [], loginButtonEl := some ⟨"log in", false⟩ }

def chatRow (entry : ChatEntry) : ChatRow :=
  { className := if entry.who = "me" then "laye-msg laye-self" else "laye-msg"
    who := entry.who
    body := entry.body }

def renderChat (page : Page) (chat : ChatState) : Page :=
  match page.document with
  | (some _, page) => page
  | (none, page) => { page with messagesEl := page.messagesEl.map fun _ => chat.history.map chatRow }

def updateLoginButton (page : Page) (handle : Option String) : Page :=
  { page with
    loginButtonEl := page.loginButtonEl.map fun _ => ⟨handle.getD "log in", handle.isSome⟩ }

def dismissError (page : Page) (domId : String) : Page :=
  match page.document with
  | (some _, page) => page
  | (none, page) => { page with overlay := hideError page.overlay domId }

end Page

end Laye
