import Shading.Builtin.Space
import Shading.Builtin.Surface
import Shading.Builtin.Vector

namespace Shading

/-!
# Running builtins

Every builtin by its name: those with a result give it back, those that write their arguments give
the arguments back.
-/

/-- Runs a builtin. -/
def Builtin.run (function : Builtin) (setting : Setting) (arguments : Array Value) :
    Except Fault Reply :=
  match function with
  | .component axis => Reply.result <$> setting.component arguments axis
  | .setComponent axis => Reply.arguments <$> setting.setComponent arguments axis
  | .length => Reply.result <$> setting.length arguments
  | .normalize => Reply.result <$> setting.normalize arguments
  | .distance => Reply.result <$> setting.distance arguments
  | .area => Reply.result <$> setting.area arguments
  | .faceforward => Reply.result <$> setting.faceforward arguments
  | .reflect => Reply.result <$> setting.reflect arguments
  | .refract => Reply.result <$> setting.refract arguments
  | .fresnel => Reply.arguments <$> setting.fresnel arguments
  | .rotate => Reply.result <$> setting.rotate arguments
  | .transform kind => Reply.result <$> setting.transform arguments kind
  | .depth => Reply.result <$> setting.depth arguments
  | .calculatenormal => Reply.result <$> setting.calculatenormal arguments
  | .derivative direction => Reply.result <$> setting.derivative arguments direction

end Shading
