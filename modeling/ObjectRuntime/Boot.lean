import ObjectRuntime.Machine.Basic

/-!
# The machine at the start

A new machine holds the core classes, each with its object, its frame and a constant in the main
frame, then the main object, nil, true and false, and the built-in methods. The frame of a class is
enclosed by that of its superclass, that of a module by the main frame.
-/

set_option autoImplicit false

namespace ObjectRuntime

namespace Core

/-- Where the constants of a core class live; the main frame comes first. -/
def frame (c : Core) : FrameId := ⟨c.id.index + 1⟩

def objectId (c : Core) : ObjectId := ⟨c.id.index⟩

def metaclass (c : Core) : Core :=
  match c.kind with
  | .classKind => classClass
  | .moduleKind => moduleClass

def classObject (c : Core) : Object := .ofPayload c.metaclass.id (.module c.id)

def bodyFrame (c : Core) : Frame :=
  .fresh .moduleBody (some ((c.superclass?.map frame).getD .main))

def entry (c : Core) : Module where
  name := some c.name
  kind := c.kind
  superclass := c.superclass?.map id
  includes := c.includes.map id
  methods := .empty
  classMethods := .empty
  frame := c.frame
  object := c.objectId

end Core

structure Installation where
  owner : Core
  name : String
  arity : Arity
  builtin : Builtin
  visibility : Visibility
  operator : Option Operator

namespace Installation

def listed (owner : Core) (name : String) (arity : Arity) (builtin : Builtin) : Installation where
  owner := owner
  name := name
  arity := arity
  builtin := builtin
  visibility := .isPublic
  operator := none

def hide (i : Installation) : Installation := { i with visibility := .isPrivate }

def ofOperator (owner : Core) (op : Operator) : Installation :=
  { listed owner op.selector (.exactly 1) (.operator op) with operator := some op }

def onObjects : List Installation :=
  [(listed .basicObject "initialize" (.atLeast 0) .accept).hide,
   listed .basicObject "==" (.exactly 1) .same,
   listed .basicObject "equal?" (.exactly 1) .same,
   listed .basicObject "!" (.exactly 0) .negate,
   listed .basicObject "__send__" (.atLeast 1) .send,
   listed .kernel "class" (.exactly 0) .classOf,
   listed .kernel "send" (.atLeast 1) .send,
   listed .kernel "public_send" (.atLeast 1) .publicSend,
   listed .kernel "respond_to?" (.between 1 2) .respondTo,
   listed .kernel "object_id" (.exactly 0) .objectId,
   listed .kernel "is_a?" (.exactly 1) .isA,
   listed .kernel "inspect" (.exactly 0) .inspect,
   listed .kernel "to_s" (.exactly 0) .inspect,
   listed .kernel "instance_variable_get" (.exactly 1) .ivarGet,
   listed .kernel "instance_variable_set" (.exactly 2) .ivarSet,
   (listed .kernel "raise" (.between 0 2) .raise).hide,
   (listed .kernel "catch" (.between 0 1) .catching).hide,
   (listed .kernel "throw" (.between 1 2) .throw).hide]

def onModules : List Installation :=
  [listed .moduleClass "name" (.exactly 0) .moduleName,
   listed .moduleClass "include" (.atLeast 1) .includeModule,
   listed .moduleClass "method_defined?" (.exactly 1) .methodDefined,
   listed .moduleClass "define_method" (.exactly 1) .defineMethod,
   listed .moduleClass "undef_method" (.atLeast 0) .undefMethod,
   listed .moduleClass "remove_method" (.atLeast 0) .removeMethod,
   listed .moduleClass "public" (.atLeast 0) (.setVisibility .isPublic),
   listed .moduleClass "private" (.atLeast 0) (.setVisibility .isPrivate),
   listed .moduleClass "protected" (.atLeast 0) (.setVisibility .isProtected),
   listed .classClass "new" (.atLeast 0) .new,
   listed .classClass "allocate" (.exactly 0) .allocate,
   listed .classClass "superclass" (.exactly 0) .superclass]

/-- The remainder of floats is a method without an operator, so it is never applied directly. -/
def onNumbers : List Installation :=
  Operator.onIntegers.map (ofOperator .integer) ++ Operator.onFloats.map (ofOperator .float) ++
    [listed .float Operator.rem.selector (.exactly 1) (.operator .rem)]

def onExceptions : List Installation :=
  [listed .exception "initialize" (.between 0 1) .exceptionSetup,
   listed .exception "message" (.exactly 0) .exceptionMessage,
   listed .exception "to_s" (.exactly 0) .exceptionMessage,
   listed .exception "backtrace" (.exactly 0) .exceptionBacktrace]

def all : List Installation := onObjects ++ onModules ++ onNumbers ++ onExceptions

def method (i : Installation) (serial : Nat) : Method where
  name := i.name
  owner := i.owner.id
  arity := i.arity
  visibility := i.visibility
  body := .native (.builtin i.builtin)
  operator := i.operator
  serial := serial

def install (h : Hierarchy) (serial : Nat) : List Installation → Hierarchy
  | [] => h
  | i :: rest => install (h.defineMethod i.owner.id (i.method serial)) (serial + 1) rest

end Installation

namespace Machine

def startObjects : List Object :=
  Core.all.map Core.classObject ++
    [.ofPayload Core.object.id .plain, .ofPayload Core.nilClass.id .nil,
     .ofPayload Core.trueClass.id .true, .ofPayload Core.falseClass.id .false]

def startFrame : Frame :=
  Core.all.foldl (fun f c => f.define c.name (.object c.objectId)) (.fresh .top none)

def startHierarchy : Hierarchy :=
  Installation.install ⟨(Core.all.map Core.entry).toArray⟩ 1 Installation.all

def boot (settings : Settings) : Machine where
  heap := { objects := startObjects.toArray, gate := .opened }
  frames := ⟨(startFrame :: Core.all.map Core.bodyFrame).toArray⟩
  hierarchy := startHierarchy
  globals := .empty
  symbols := .empty
  missReason := .notFound
  settings := settings
  counters := if settings.profile then some .zero else none
  current := none
  depth := 0
  tokens := 0
  methodsMade := Installation.all.length
  desk := { registers := .empty, kept := .empty, log := [] }

end Machine

end ObjectRuntime
