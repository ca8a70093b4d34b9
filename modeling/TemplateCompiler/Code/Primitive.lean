import TemplateCompiler.Code.Basic
import TemplateCompiler.Config

/-!
# Calls of the rendering interface

A primitive is a member of the interface's parameter, called with its operands in order.
-/

namespace TemplateCompiler.Config

def primitive (c : Config) (name : String) : Code :=
  .refMember c.apiParam name

def callPrimitive (c : Config) (name : String) (arguments : List Code) : Code :=
  .call (c.primitive name) arguments

end TemplateCompiler.Config
