import MenuFirmware.Config.Restore
import MenuFirmware.Config.Crash
import MenuFirmware.Config.Sync
import MenuFirmware.Fpga.Replay
import MenuFirmware.Spi.Frames
import MenuFirmware.Spi.Retry
import MenuFirmware.Spi.Serve
import MenuFirmware.Menu.Safety
import MenuFirmware.Boot.Download
import MenuFirmware.Serial.Receive
import MenuFirmware.Serial.Mavlink
import MenuFirmware.Lib.RingBuf
import MenuFirmware.Eth.Queue
import MenuFirmware.Boot.FileHeader
import MenuFirmware.Config.Events
import MenuFirmware.Config.Gating
import MenuFirmware.Config.Radio
import MenuFirmware.Config.Registers
import MenuFirmware.Lib.Blocks
import MenuFirmware.Spi.Stream
import MenuFirmware.Spi.Uart
import MenuFirmware.Menu.Editors
import MenuFirmware.Lib.Fifo
import MenuFirmware.Lib.Memory
import MenuFirmware.App.EventManage
import MenuFirmware.Input.Key
import MenuFirmware.Input.Scan
import MenuFirmware.Input.LongPress
import MenuFirmware.Lib.ScrollView
import MenuFirmware.Menu.Scroll
import MenuFirmware.Menu.Exit
import MenuFirmware.App.Wake
import MenuFirmware.Gps.Pps
import MenuFirmware.Gps.Dirft
import MenuFirmware.Lib.Sender
import MenuFirmware.Serial.Transmit
import MenuFirmware.Serial.Checksum
import MenuFirmware.Flash.Refusal
import MenuFirmware.Config.Certify
import MenuFirmware.Gps.Rtc
import MenuFirmware.Gps.Mean
import MenuFirmware.Eth.Accept
import MenuFirmware.Lib.Delimited
import MenuFirmware.Gps.Nmea
import MenuFirmware.Gps.Uart4
import MenuFirmware.Gps.Rmc
import MenuFirmware.Gps.UtcDate
import MenuFirmware.Gps.UtcTime
import MenuFirmware.Gps.Validity
import MenuFirmware.Gps.Leftover
import MenuFirmware.Ts.Mux
import MenuFirmware.Ts.Normal
import MenuFirmware.Ts.Start
import MenuFirmware.Ts.Poll
import MenuFirmware.Serial.Access
import MenuFirmware.Config.Env
import MenuFirmware.Lib.SerialIn
import MenuFirmware.Oled.Draw
import MenuFirmware.Oled.Inverse
import MenuFirmware.Oled.Wrap
import MenuFirmware.Oled.Number
import MenuFirmware.Lib.DescRing
import MenuFirmware.Eth.Transmit
import MenuFirmware.Eth.Input
import MenuFirmware.Eth.Wire
import MenuFirmware.Eth.Fetch
import MenuFirmware.Eth.Interrupt
import MenuFirmware.Eth.Commands
import MenuFirmware.Eth.Room
import MenuFirmware.Eth.Steps
import MenuFirmware.Eth.Reply
import MenuFirmware.Eth.Card
import MenuFirmware.Ts.Demux
import MenuFirmware.App.Pollint
import MenuFirmware.Lib.Canvas
import MenuFirmware.Oled.Panel
import MenuFirmware.Oled.MainMeau
import MenuFirmware.Oled.Picture
import MenuFirmware.App.Screen
import MenuFirmware.Oled.Text
import MenuFirmware.Menu.Titles
import MenuFirmware.Menu.Lines
import MenuFirmware.Menu.Pages
import MenuFirmware.App.MenuScreen
import MenuFirmware.App.MenuShown
