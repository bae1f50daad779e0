import THue.LogDelivery
import THue.TaskStatements
import THue.HandleLifetime
import THue.TlsSession
import THue.RunBinding
import THue.FrameLights
import THue.PageTurns
import THue.RoomPaging
import THue.LightSelection
import THue.BackTrail
import THue.LightMode
import THue.DialMemory
import THue.Credentials
import THue.StartRequests
import THue.CountEdits
import THue.TouchDispatch
import THue.LogThrottle
import THue.DialCycle
import THue.DialWindow
import THue.ButtonPresses
import THue.RoomVisits
import THue.LightRecords
import THue.LightDials
import THue.BridgeIndices
import THue.BrightnessSteps
import THue.DtlsConnection
import THue.LightScales
import THue.LightResponses
import THue.TimingSettings
import THue.ShownCounts
import THue.OutputRuns
import THue.DetentKnob
import THue.RotaryDials
import THue.KnobSelection
import THue.TouchPanel
import THue.PanelTouches
import THue.Pictures
import THue.PanelBuffer
import THue.GfxShapes
import THue.PanelDrawing
import THue.PanelDriver
import THue.PanelWindow
import THue.PanelPicture
import THue.JsonText
import THue.HueRequests
import THue.Fonts
import THue.TextOutput
import THue.PanelText
import THue.SquareDrawing
